import HyprShelld.Workspaces.Consistency
import HyprShelld.Workspaces.Source

/-! Workspace actions act on an untouched snapshot, and no event is forgotten. -/
namespace HyprShelld.Workspaces

def Mark.begins : Mark → Bool
  | .began _ => true
  | _ => false

def Mark.advances : Mark → Bool
  | .advanced _ => true
  | _ => false

/-- The replies of one cycle, which began in this generation and accepted them in it. -/
structure Cycle (generation : Int) (recent : List Mark) (payloads : Command → Option QString) : Prop where
  single : ∀ m ∈ recent, m.begins = false
  accepted : ∀ command payload, payloads command = some payload → .accepted generation command payload ∈ recent

/-- A cycle that has begun last, with a refresh queued where the generation was advanced since. -/
def Ongoing (history : List Mark) (generation : Int) (queued : Bool) (payloads : Command → Option QString) : Prop :=
  ∃ recent before, history = recent ++ .began generation :: before ∧ Cycle generation recent payloads ∧
    (queued = false → ∀ m ∈ recent, m.advances = false)

/-- The last thing that happened: the last cycle was committed in the generation that it began in, with a snapshot built
from four replies accepted in that generation, and nothing has advanced the generation since it began. -/
def Current (engine : Engine) (history : List Mark) (generation : Int) (snapshot : Snapshot) : Prop :=
  ∃ recent before, history = .committed generation snapshot :: (recent ++ .began generation :: before) ∧
    (∀ m ∈ recent, m.begins = false ∧ m.advances = false) ∧
    ∃ replies : Command → QString, (∀ command, .accepted generation command (replies command) ∈ recent) ∧
      ∃ addresses revision reconciled,
        Source.buildCycle engine (fun command => some (replies command)) addresses revision = .ok (snapshot, reconciled)

theorem Cycle.cons {generation : Int} {recent : List Mark} {payloads : Command → Option QString}
    (h : Cycle generation recent payloads) {m : Mark} (hm : m.begins = false) : Cycle generation (m :: recent) payloads where
  single := by simpa [hm] using h.single
  accepted command payload hp := List.mem_cons_of_mem _ (h.accepted command payload hp)

theorem Cycle.accept {generation : Int} {recent : List Mark} {payloads : Command → Option QString}
    (h : Cycle generation recent payloads) (command : Command) (payload : QString) :
    Cycle generation (.accepted generation command payload :: recent)
      (Function.update payloads command (some payload)) where
  single := by simpa [Mark.begins] using h.single
  accepted other reply hp := by
    by_cases hother : other = command
    · subst hother
      rw [Function.update_self] at hp
      cases hp
      exact List.mem_cons_self
    · rw [Function.update_of_ne hother] at hp
      exact List.mem_cons_of_mem _ (h.accepted other reply hp)

section Building
variable {engine : Engine}

theorem parseArray_missing (hparse : engine.parseJson [] = none) (label : String) (items : List QJsonValue) :
    parseArray engine none label ≠ .ok items := by
  simp [parseArray, hparse]

theorem parseStatus_missing (hparse : engine.parseJson [] = none) (status : Status) : parseStatus engine none ≠ .ok status := by
  have htext : trim [] = [] := rfl
  have hunknown : ([] : QString) ≠ qstr "unknown request" := by decide
  simp [parseStatus, htext, hparse, hunknown]

/-- A snapshot is built from four replies. -/
theorem buildCycle_complete (hparse : engine.parseJson [] = none) {payloads : Command → Option QString}
    {addresses : UrgentAddresses} {revision : Int} {result : Snapshot × UrgentAddresses}
    (h : Source.buildCycle engine payloads addresses revision = .ok result) :
    ∃ replies : Command → QString, payloads = fun command => some (replies command) := by
  unfold Source.buildCycle at h
  split at h
  · cases h
  rename_i status hstatus
  split at h
  · cases h
  rename_i snapshot reconciled hbuilt
  obtain ⟨_, hworkspaces, hbuilt⟩ := bind_ok_iff.1 hbuilt
  obtain ⟨_, hmonitors, hbuilt⟩ := bind_ok_iff.1 hbuilt
  obtain ⟨_, hclients, -⟩ := bind_ok_iff.1 hbuilt
  rw [returning_ok_iff] at hworkspaces hmonitors hclients
  have hall : ∀ command, payloads command ≠ none := by
    intro command hnone
    cases command with
    | status => exact parseStatus_missing hparse status (hnone ▸ hstatus)
    | workspaces => exact parseArray_missing hparse _ _ (hnone ▸ hworkspaces)
    | monitors => exact parseArray_missing hparse _ _ (hnone ▸ hmonitors)
    | clients => exact parseArray_missing hparse _ _ (hnone ▸ hclients)
  choose replies hreplies using fun command => Option.ne_none_iff_exists'.mp (hall command)
  exact ⟨replies, funext hreplies⟩

theorem normalizeWorkspaces_thrown {rawWorkspaces : List QJsonValue} :
    normalizeWorkspaces rawWorkspaces = .error .thrown ↔ (rawWorkspaces.any fun v => !idConverts v) = true := by
  rw [normalizeWorkspaces, ← List.not_all_eq_any_not]
  cases h : rawWorkspaces.all idConverts <;> simp

theorem returning_ne_thrown {α : Type} (result : Except QString α) : returning result ≠ .error .thrown := by
  cases result <;> simp [returning, Except.mapError]

/-- An exception comes from the id of a workspace record and from nothing else. -/
theorem buildSnapshot_thrown {workspacePayload monitorPayload clientPayload : Option QString} {addresses : UrgentAddresses}
    {revision : Int} : buildSnapshot engine workspacePayload monitorPayload clientPayload addresses revision = .error .thrown ↔
      ∃ rawWorkspaces, parseArray engine workspacePayload "workspace" = .ok rawWorkspaces ∧
        (∃ rawMonitors, parseArray engine monitorPayload "monitor" = .ok rawMonitors) ∧
        (∃ rawClients, parseArray engine clientPayload "client" = .ok rawClients) ∧
        (rawWorkspaces.any fun v => !idConverts v) = true := by
  unfold buildSnapshot
  simp only [bind_error_iff, returning_ne_thrown, false_or, returning_ok_iff]
  constructor
  · rintro ⟨rawWorkspaces, hworkspaces, rawMonitors, hmonitors, rawClients, hclients, hthrown | ⟨normalized, -, hrest⟩⟩
    · exact ⟨rawWorkspaces, hworkspaces, ⟨_, hmonitors⟩, ⟨_, hclients⟩, normalizeWorkspaces_thrown.1 hthrown⟩
    · -- the checks that follow return their errors
      split at hrest
      · rename_i monitors workspaces clients _ _
        simp only [bind_error_iff, returning_ne_thrown, false_or] at hrest
        obtain ⟨_, _, _, _, _, _, _, _, hrest⟩ := hrest
        cases hrest
      · cases hrest
  · rintro ⟨rawWorkspaces, hworkspaces, ⟨rawMonitors, hmonitors⟩, ⟨rawClients, hclients⟩, hthrown⟩
    exact ⟨_, hworkspaces, _, hmonitors, _, hclients, .inl (normalizeWorkspaces_thrown.2 hthrown)⟩

theorem buildCycle_thrown (payloads : Command → Option QString) (addresses : UrgentAddresses) (revision : Int) :
    Source.buildCycle engine payloads addresses revision = .error .thrown ↔ Source.idsThrow engine payloads = true := by
  have hisOk {α : Type} (result : Except QString α) : result.isOk = true ↔ ∃ a, result = .ok a := by
    cases result <;> simp [Except.isOk, Except.toBool]
  have hsome {α : Type} (result : Except QString α) (a : α) : result.toOption = some a ↔ result = .ok a := by
    cases result <;> simp [Except.toOption]
  have hthrown : Source.buildCycle engine payloads addresses revision = .error .thrown ↔
      (∃ status, parseStatus engine (payloads .status) = .ok status) ∧
        buildSnapshot engine (payloads .workspaces) (payloads .monitors) (payloads .clients) addresses revision = .error .thrown := by
    unfold Source.buildCycle
    cases parseStatus engine (payloads .status) with
    | error message => simp
    | ok status =>
      cases buildSnapshot engine (payloads .workspaces) (payloads .monitors) (payloads .clients) addresses revision <;> simp
  rw [hthrown, buildSnapshot_thrown, Source.idsThrow]
  simp only [Bool.and_eq_true, hisOk, Option.any_eq_true, hsome]
  grind

end Building

namespace Source

section Invariant
variable (engine : Engine) (smooth : Prop) (s : Source)

/-- A stream belongs to a source that runs. -/
def Wired : Prop := s.eventStream.isSome = true → s.started = true ∧ s.destroyed = false

/-- A source with a snapshot has seen at most two failures since. -/
def Counted : Prop :=
  s.available = true → 0 ≤ s.retryAttempt ∧ s.retryAttempt ≤ s.consecutiveFailures ∧ s.consecutiveFailures < 3

def Steady : Prop := s.Wired ∧ s.Counted

/-- Something will carry the cycle on. -/
def Carried : Prop := s.destroyed = true ∨ s.activeRequest.isSome = true ∨ ∃ d ∈ s.deferred, d ≠ .queueRefresh

/-- Between two cycles a queued refresh has its timer or is deferred, and only a current snapshot waits for nothing, unless an
exception ended the last cycle, after which no snapshot is available. -/
def Rested : Prop :=
  (s.refreshQueued = true → s.refreshTimer.running = true ∨ .queueRefresh ∈ s.deferred) ∧
    (s.refreshQueued = true ∨ s.refreshTimer.running = true ∨ s.retryTimer.running = true ∨
      Current engine s.history s.eventGeneration s.snapshot ∨ ¬ smooth ∧ s.available = false)

def InCycle : Prop := Ongoing s.history s.cycleEventGeneration s.refreshQueued s.cyclePayloads

/-- What holds in every state, `smooth` saying that no exception led to it. -/
structure Sound : Prop where
  steady : s.Steady
  active : s.cycleActive = true → s.InCycle ∧ (smooth → s.Carried)
  idle : s.cycleActive = false → s.live = true → Rested engine smooth s

end Invariant

variable {engine : Engine} {smooth : Prop} {s : Source}

theorem not_live (h : s.eventStream = none) : s.live = false := by simp [live, h]

theorem Steady.of_live (hs : s.Steady) (h : s.live = true) : s.started = true ∧ s.destroyed = false := by
  apply hs.1
  cases hstream : s.eventStream with
  | none => rw [not_live hstream] at h; exact absurd h (by simp)
  | some stream => rfl

theorem wrapped_eq {n : Int} (hlow : 0 ≤ n) (hhigh : n ≤ 3) : wrapped n = n := by
  unfold wrapped
  rw [Int.bmod_eq_of_le]
  · omega
  · omega

theorem Counted.fail (h : s.Counted) : (s.available && decide (wrapped (s.consecutiveFailures + 1) < 3)) = true →
    0 ≤ s.retryAttempt ∧ s.retryAttempt < wrapped (s.consecutiveFailures + 1) ∧ wrapped (s.consecutiveFailures + 1) < 3 := by
  rw [Bool.and_eq_true, decide_eq_true_eq]
  rintro ⟨havailable, hfew⟩
  obtain ⟨hlow, hattempt, hhigh⟩ := h havailable
  have hnext : wrapped (s.consecutiveFailures + 1) = s.consecutiveFailures + 1 := wrapped_eq (by omega) (by omega)
  rw [hnext] at hfew ⊢
  omega

/-- With fewer exceptions asked for, the invariant says more. -/
theorem Sound.mono {smooth' : Prop} (hs : Sound engine smooth s) (h : smooth' → smooth) : Sound engine smooth' s :=
  ⟨hs.steady, fun hactive => ⟨(hs.active hactive).1, fun hsmooth => (hs.active hactive).2 (h hsmooth)⟩, fun hidle hlive =>
    ⟨(hs.idle hidle hlive).1, (hs.idle hidle hlive).2.imp_right <| Or.imp_right <| Or.imp_right <| Or.imp_right fun hlost =>
      ⟨fun hsmooth => hlost.1 (h hsmooth), hlost.2⟩⟩⟩

theorem InCycle.queue (h : s.InCycle) : InCycle { s with refreshQueued := true } := by
  obtain ⟨recent, before, hhistory, hcycle, _⟩ := h
  exact ⟨recent, before, hhistory, hcycle, fun hq => absurd hq (by simp)⟩

theorem InCycle.advance (h : s.InCycle) (cause : Cause) : InCycle { s.advance cause with refreshQueued := true } := by
  obtain ⟨recent, before, hhistory, hcycle, _⟩ := h
  exact ⟨.advanced cause :: recent, before, by simp [Source.advance, hhistory], hcycle.cons rfl, fun hq => absurd hq (by simp)⟩

/-- A live source that waits for nothing has a current snapshot, or none. -/
theorem Sound.current (hs : Sound engine smooth s) (hlive : s.live = true) (hidle : s.cycleActive = false)
    (hqueued : s.refreshQueued = false) (hrefresh : s.refreshTimer.running = false)
    (hretry : s.retryTimer.running = false) :
    Current engine s.history s.eventGeneration s.snapshot ∨ ¬ smooth ∧ s.available = false := by
  rcases (hs.idle hidle hlive).2 with h | h | h | h
  · exact absurd (hqueued.symm.trans h) (by simp)
  · exact absurd (hrefresh.symm.trans h) (by simp)
  · exact absurd (hretry.symm.trans h) (by simp)
  · exact h

section Refresh

theorem queueRefresh_sound (hs : s.Steady)
    (hc : s.cycleActive = true → InCycle { s with refreshQueued := true } ∧ (smooth → s.Carried)) (delay : Nat) :
    Sound engine smooth (s.queueRefresh delay) := by
  unfold queueRefresh
  dsimp only
  split
  · rename_i hstop
    refine ⟨hs, hc, fun hidle hlive => ?_⟩
    have hstarted := (hs.of_live hlive).1
    simp_all [live]
  · rename_i hgo
    split
    · rename_i hrunning
      simp only [Bool.and_eq_true] at hrunning
      exact ⟨hs, hc, fun _ _ => ⟨fun _ => .inl hrunning.1, .inl rfl⟩⟩
    · exact ⟨hs, hc, fun _ _ => ⟨fun _ => .inl rfl, .inl rfl⟩⟩

/-- A cycle that fails is tried again, unless the attempts have wrapped. -/
theorem failCycle_sound (hs : s.Steady) (hsmooth : smooth → s.failThrows = false) (message : QString) :
    Sound engine smooth (s.failCycle message) := by
  have hfail := hs.2.fail
  unfold failCycle
  dsimp only
  split
  · rename_i hstop
    refine ⟨⟨hs.1, fun h => ⟨(hfail h).1, (hfail h).2.1.le, (hfail h).2.2⟩⟩, fun h => absurd h (by simp), fun _ hlive => ?_⟩
    have hstarted := (Steady.of_live hs hlive).1
    simp_all [live]
  · rename_i hgo
    rw [Bool.or_eq_true, not_or, Bool.not_eq_true', Bool.not_eq_false, Bool.not_eq_true', Bool.not_eq_false] at hgo
    split
    · rename_i hwrapped
      have hlost : (s.available && decide (wrapped (s.consecutiveFailures + 1) < 3)) = false := by
        by_contra h
        have := (hfail (by simpa using h)).1
        omega
      refine ⟨⟨hs.1, fun h => absurd (hlost.symm.trans h) (by simp)⟩, fun h => absurd h (by simp),
        fun _ _ => ⟨fun h => absurd h (by simp), .inr (.inr (.inr (.inr ⟨fun h => ?_, hlost⟩)))⟩⟩
      have hthrows := hsmooth h
      rw [failThrows, hgo.1] at hthrows
      have hlive : s.live = true := hgo.2
      simp [hlive, hwrapped] at hthrows
    · rename_i hsome
      refine ⟨⟨hs.1, fun h => ?_⟩, fun h => absurd h (by simp), fun _ _ => ⟨fun h => absurd h (by simp), .inr (.inr (.inl rfl))⟩⟩
      obtain ⟨hlow, hattempt, hfew⟩ := hfail h
      have hnext : wrapped (s.retryAttempt + 1) = s.retryAttempt + 1 := wrapped_eq (by omega) (by omega)
      dsimp only
      rw [hnext]
      omega

theorem discardInvalidatedCycle_sound (hs : s.Steady) : Sound engine smooth s.discardInvalidatedCycle := by
  unfold discardInvalidatedCycle
  dsimp only
  split
  · exact queueRefresh_sound (by exact hs) (fun h => absurd h (by simp)) 0
  · rename_i hlive
    exact ⟨hs, fun h => absurd h (by simp), fun _ h => absurd h hlive⟩

end Refresh

section Cycle

theorem startRequest_sound (hs : s.Steady) (hc : s.cycleActive = true → s.InCycle)
    (hi : s.cycleActive = false → Sound engine smooth s) {command : Command} {created : Bool}
    (hsmooth : smooth → (s.cycleActive && s.requestFails created && s.failThrows) = false) :
    Sound engine smooth (s.startRequest command created) := by
  unfold startRequest
  split
  · rename_i hstop
    cases hactive : s.cycleActive with
    | false => exact hi hactive
    | true =>
      rw [hactive] at hstop
      exact ⟨hs, fun h => ⟨hc h, fun _ => .inr (.inl (by simpa using hstop))⟩, fun h => absurd h (by simp [hactive])⟩
  · rename_i hgo
    have hgo : s.cycleActive = true ∧ s.activeRequest = none := by simpa using hgo
    split
    · rename_i hempty
      exact failCycle_sound hs (fun h => by simpa [hgo, requestFails, hempty] using hsmooth h) _
    · split
      · rename_i hcreated
        exact failCycle_sound hs (fun h => by simpa [hgo, requestFails, hcreated] using hsmooth h) _
      · exact ⟨hs, fun h => ⟨hc h, fun _ => .inr (.inl rfl)⟩, fun h => absurd (hgo.1.symm.trans h) (by simp)⟩

theorem beginCycle_sound (hs : s.Steady) (hc : s.cycleActive = true → s.InCycle ∧ (smooth → s.Carried)) {created : Bool}
    (hsmooth : smooth → (!s.cycleActive && s.requestFails created && s.failThrows) = false) :
    Sound engine smooth (s.beginCycle created) := by
  unfold beginCycle
  split
  · rename_i hstop
    refine ⟨hs, hc, fun _ hlive => ?_⟩
    have hstarted := (hs.of_live hlive).1
    simp_all
  · split
    · rename_i hactive
      exact ⟨hs, fun h => ⟨(hc h).1.queue, (hc h).2⟩, fun h => absurd (hactive.symm.trans h) (by simp)⟩
    · rename_i hidle
      rw [Bool.not_eq_true] at hidle
      refine startRequest_sound (by exact hs) (fun _ => ?_) (fun h => absurd h (by simp)) fun h => ?_
      · exact ⟨[], s.history, rfl, ⟨by simp, by simp⟩, by simp⟩
      · have hthrows := hsmooth h
        rw [hidle] at hthrows
        exact hthrows

theorem acceptResponse_sound (hs : s.Steady) (hc : s.cycleActive = true → s.InCycle)
    (hi : s.cycleActive = false → Sound engine smooth s) (command : Command) (payload : QString) :
    Sound engine smooth (s.acceptResponse command payload) := by
  unfold acceptResponse
  split
  · rename_i hidle
    exact hi (by simpa using hidle)
  · rename_i hactive
    have hactive : s.cycleActive = true := by simpa using hactive
    split
    · exact discardInvalidatedCycle_sound hs
    · rename_i hcurrent
      have hgeneration : s.cycleEventGeneration = s.eventGeneration := by
        by_contra h
        exact hcurrent (.inl h)
      obtain ⟨recent, before, hhistory, hcycle, hqueued⟩ := hc hactive
      have hnext : Ongoing (.accepted s.eventGeneration command payload :: s.history) s.cycleEventGeneration s.refreshQueued
          (Function.update s.cyclePayloads command (some payload)) := by
        refine ⟨.accepted s.eventGeneration command payload :: recent, before, by simp [hhistory], ?_, fun hq => ?_⟩
        · rw [← hgeneration]
          exact hcycle.accept command payload
        · simpa [Mark.advances] using hqueued hq
      dsimp only
      split
      · exact ⟨hs, fun _ => ⟨hnext, fun _ => .inr (.inr ⟨_, List.mem_append_right _ List.mem_cons_self, by simp⟩)⟩,
          fun h => absurd h (by simp [defer, hactive])⟩
      · unfold deferCommit
        split
        · rename_i hwaits
          exact ⟨hs, fun _ => ⟨hnext, fun _ => .inr (.inr ⟨_, hwaits, by simp⟩)⟩, fun h => absurd h (by simp [hactive])⟩
        · exact ⟨hs, fun _ => ⟨hnext, fun _ => .inr (.inr ⟨_, List.mem_append_right _ List.mem_cons_self, by simp⟩)⟩,
            fun h => absurd h (by simp [defer, hactive])⟩

theorem commitCycle_sound (hparse : engine.parseJson [] = none) (hs : s.Steady) (hc : s.cycleActive = true → s.InCycle)
    (hi : s.cycleActive = false → Sound engine smooth s) (hsmooth : smooth → s.commitThrows engine = false) :
    Sound engine smooth (s.commitCycle engine) := by
  unfold commitCycle
  split
  · rename_i hidle
    exact hi (by simpa using hidle)
  · rename_i hactive
    have hactive : s.cycleActive = true := by simpa using hactive
    split
    · exact discardInvalidatedCycle_sound hs
    · rename_i hcurrent
      obtain ⟨hgeneration, hlive⟩ : s.cycleEventGeneration = s.eventGeneration ∧ s.live = true := by simpa using hcurrent
      have hthrows (h : smooth) : idsThrow engine s.cyclePayloads = false ∧ (s.failThrows = true →
          (buildCycle engine s.cyclePayloads s.urgentAddresses (s.snapshot.revision + 1)).isOk = true) := by
        simpa [commitThrows, hactive, hgeneration, hlive] using hsmooth h
      split
      · rename_i message hbuilt
        refine failCycle_sound hs (fun h => ?_) _
        by_contra hwrapped
        have hok := (hthrows h).2 (by simpa using hwrapped)
        rw [hbuilt] at hok
        cases hok
      · rename_i hthrown
        refine ⟨hs, fun h => ⟨hc h, fun hsm => ?_⟩, fun h => absurd (hactive.symm.trans h) (by simp)⟩
        exact absurd ((hthrows hsm).1.symm.trans ((buildCycle_thrown _ _ _).1 hthrown)) (by simp)
      · rename_i snapshot urgentAddresses hbuilt
        have hcounted : (0 : Int) ≤ 0 ∧ (0 : Int) ≤ 0 ∧ (0 : Int) < 3 := by decide
        dsimp only
        split
        · exact queueRefresh_sound (by exact ⟨hs.1, fun _ => hcounted⟩) (fun h => absurd h (by simp)) 0
        · rename_i hqueued
          refine ⟨⟨hs.1, fun _ => hcounted⟩, fun h => absurd h (by simp),
            fun _ _ => ⟨fun h => absurd h hqueued, .inr (.inr (.inr (.inl ?_)))⟩⟩
          obtain ⟨recent, before, hhistory, hcycle, hadvances⟩ := hc hactive
          obtain ⟨replies, hreplies⟩ := buildCycle_complete hparse hbuilt
          rw [hgeneration] at hcycle hhistory
          refine ⟨recent, before, by rw [hhistory], fun m hm => ⟨hcycle.single m hm, hadvances (by simpa using hqueued) m hm⟩,
            replies, fun command => hcycle.accepted command _ (by rw [hreplies]), s.urgentAddresses, s.snapshot.revision + 1,
            urgentAddresses, ?_⟩
          rw [← hreplies]
          exact hbuilt

theorem requestSucceeded_sound (hs : Sound engine smooth s) (id : Nat) (payload : QString) :
    Sound engine smooth (s.requestSucceeded id payload) := by
  unfold requestSucceeded
  split
  · split
    · apply acceptResponse_sound
      · exact hs.steady
      · exact fun h => (hs.active h).1
      · exact fun hidle => ⟨hs.steady, fun h => absurd (hidle.symm.trans h) (by simp), hs.idle⟩
    · exact hs
  · exact hs

theorem requestFailed_sound (hs : Sound engine smooth s) {id : Nat} (message : QString)
    (hsmooth : smooth → (s.activeRequest.any (·.id = id) && s.failThrows) = false) :
    Sound engine smooth (s.requestFailed id message) := by
  unfold requestFailed
  split
  · rename_i request hrequest
    split
    · rename_i hid
      exact failCycle_sound hs.steady (fun h => by simpa [hrequest, hid] using hsmooth h) message
    · exact hs
  · exact hs

end Cycle

section Events

/-- A failure leaves neither a stream nor a cycle, and no attempt is made without a stream. -/
theorem handleEventFailure_sound (hs : s.Steady) (message : QString) : Sound engine smooth (s.handleEventFailure message) := by
  unfold handleEventFailure
  extract_lets advanced down ended
  have hlive : down.live = false := rfl
  have hsteady : down.Steady := ⟨fun h => absurd h (by simp [down, advanced, advance]), hs.2⟩
  have hended : Sound engine smooth ended := by
    unfold ended
    split
    · exact failCycle_sound hsteady (fun _ => by simp [failThrows, hlive]) _
    · rename_i hidle
      simp only [Bool.or_eq_true, not_or, Bool.not_eq_true] at hidle
      exact ⟨hsteady, fun h => absurd (hidle.2.symm.trans h) (by simp), fun _ h => absurd (hlive.symm.trans h) (by simp)⟩
  split
  · exact hended
  · exact ⟨hended.steady, hended.active, hended.idle⟩

theorem connectEventSocket_sound (hs : Sound engine smooth s) (hthere : s.destroyed = false) (created : Bool) :
    Sound engine smooth (s.connectEventSocket created) := by
  unfold connectEventSocket
  split
  · exact hs
  · rename_i hgo
    split
    · exact handleEventFailure_sound hs.steady _
    · refine ⟨⟨fun _ => ⟨?_, hthere⟩, hs.steady.2⟩, hs.active, fun _ h => absurd h (by simp [live])⟩
      simp_all

theorem eventConnected_sound (hs : Sound engine smooth s) {id : Nat} (hid : s.ofStream id = true) :
    Sound engine smooth (s.eventConnected id) := by
  have hsome : s.eventStream.isSome = true := by
    cases hstream : s.eventStream with
    | none => simp [ofStream, hstream] at hid
    | some stream => rfl
  refine ⟨⟨fun _ => hs.steady.1 hsome, hs.steady.2⟩, fun h => ⟨?_, fun hsm => ?_⟩, fun _ _ => ⟨fun _ => .inr ?_, .inl rfl⟩⟩
  · exact (hs.active h).1.advance .connected
  · rcases (hs.active h).2 hsm with hgone | hrequest | ⟨d, hd, hne⟩
    · exact .inl hgone
    · exact .inr (.inl hrequest)
    · exact .inr (.inr ⟨d, List.mem_append_left _ hd, hne⟩)
  · exact List.mem_append_right _ List.mem_cons_self

theorem handleEventLine_sound (hs : Sound engine smooth s) (line : QString) :
    Sound engine smooth (s.handleEventLine engine line) := by
  unfold handleEventLine
  split
  · apply queueRefresh_sound
    · exact hs.steady
    · exact fun h => ⟨(hs.active h).1.advance .oversizedLine, (hs.active h).2⟩
  · dsimp only
    split
    · exact hs
    · apply queueRefresh_sound
      · exact hs.steady
      · exact fun h => ⟨(hs.active h).1.advance .relevantLine, (hs.active h).2⟩

theorem eventSocketPathChanged_sound (hs : Sound engine smooth s) : Sound engine smooth s.eventSocketPathChanged := by
  unfold eventSocketPathChanged
  split
  · exact hs
  · split
    · exact handleEventFailure_sound hs.steady _
    · split
      · exact hs
      · exact ⟨hs.steady, hs.active, hs.idle⟩

end Events

section Runs

/-- A call that leaves the queue is carried out, unless it continues a cycle. -/
theorem callDeferred_sound (hparse : engine.parseJson [] = none) (hs : Sound engine smooth s) {index : Nat} {created : Bool}
    {d : Deferred} (hd : s.deferred[index]? = some d)
    (hsmooth : smooth → s.throws engine (.deferredCall index created) = false) :
    Sound engine smooth (callDeferred engine { s with deferred := s.deferred.eraseIdx index } created d) := by
  have hkept : ∀ other ∈ s.deferred, other ≠ d → other ∈ s.deferred.eraseIdx index := by
    intro other hother hne
    obtain ⟨j, hj⟩ := List.getElem?_of_mem hother
    rw [List.mem_eraseIdx_iff_getElem?]
    refine ⟨j, fun hji => hne ?_, hj⟩
    rw [hji, hd] at hj
    exact (Option.some.inj hj).symm
  have hidle : d ≠ .queueRefresh → s.cycleActive = false →
      Sound engine smooth { s with deferred := s.deferred.eraseIdx index } := by
    refine fun hne hidle => ⟨hs.steady, fun h => absurd (hidle.symm.trans h) (by simp), fun h hlive => ?_⟩
    have hrested := hs.idle h hlive
    exact ⟨fun hq => (hrested.1 hq).imp_right fun hmem => hkept _ hmem (Ne.symm hne), hrested.2⟩
  rw [throws, hd] at hsmooth
  cases d with
  | queueRefresh =>
    apply queueRefresh_sound
    · exact hs.steady
    · refine fun h => ⟨(hs.active h).1.queue, fun hsm => ((hs.active h).2 hsm).imp_right (Or.imp_right ?_)⟩
      rintro ⟨other, hother, hne⟩
      exact ⟨other, hkept other hother hne, hne⟩
  | startRequest command =>
    apply startRequest_sound
    · exact hs.steady
    · exact fun h => (hs.active h).1
    · exact hidle (by simp)
    · exact hsmooth
  | commitCycle =>
    apply commitCycle_sound hparse
    · exact hs.steady
    · exact fun h => (hs.active h).1
    · exact hidle (by simp)
    · exact hsmooth

/-- A step lemma: what the engine does next keeps the invariant, and an exception is the only way to lose the smooth part. -/
theorem step_sound (hparse : engine.parseJson [] = none) (hs : Sound engine smooth s) {action : Action}
    (hsmooth : smooth → s.throws engine action = false) : Sound engine smooth (step engine s action) := by
  unfold step
  split
  · exact hs
  · rename_i hthere
    have hthere : s.destroyed = false := by simpa using hthere
    cases action with
    | completed created =>
      dsimp only [handle]
      split
      · exact hs
      · apply connectEventSocket_sound
        · exact ⟨⟨fun h => ⟨rfl, (hs.steady.1 h).2⟩, hs.steady.2⟩, hs.active, hs.idle⟩
        · exact hthere
    | connected id =>
      dsimp only [handle]
      split
      · exact eventConnected_sound hs (by assumption)
      · exact hs
    | eventLine id line =>
      dsimp only [handle]
      split
      · exact handleEventLine_sound hs line
      · exact hs
    | streamFailed id message =>
      dsimp only [handle]
      split
      · exact handleEventFailure_sound hs.steady message
      · exact hs
    | requestSucceeded id payload => exact requestSucceeded_sound hs id payload
    | requestFailed id message => exact requestFailed_sound hs message hsmooth
    | refreshTriggered created =>
      dsimp only [handle]
      split
      · rename_i hrunning
        apply beginCycle_sound
        · exact hs.steady
        · exact hs.active
        · intro h
          have hthrows := hsmooth h
          rw [throws, hrunning, Bool.true_and] at hthrows
          exact hthrows
      · exact hs
    | retryTriggered =>
      dsimp only [handle]
      split
      · apply queueRefresh_sound
        · exact hs.steady
        · exact fun h => ⟨(hs.active h).1.queue, (hs.active h).2⟩
      · exact hs
    | reconnectTriggered created =>
      dsimp only [handle]
      split
      · apply connectEventSocket_sound
        · exact ⟨hs.steady, hs.active, hs.idle⟩
        · exact hthere
      · exact hs
    | lossTriggered =>
      dsimp only [handle]
      split
      · unfold eventLost
        split
        · exact ⟨hs.steady, hs.active, hs.idle⟩
        · rename_i hlost
          exact ⟨⟨hs.steady.1, fun h => absurd h (by simp)⟩, hs.active, fun _ hlive => absurd hlive hlost⟩
      · exact hs
    | deferredCall index created =>
      dsimp only [handle]
      split
      · exact callDeferred_sound hparse hs (by assumption) hsmooth
      · exact hs
    | refreshNow =>
      apply queueRefresh_sound hs.steady
      exact fun h => ⟨(hs.active h).1.queue, (hs.active h).2⟩
    | setRequestSocketPath path =>
      exact ⟨hs.steady, hs.active, hs.idle⟩
    | setEventSocketPath path =>
      dsimp only [handle]
      split
      · exact hs
      · apply eventSocketPathChanged_sound
        exact ⟨hs.steady, hs.active, hs.idle⟩
    | destruction =>
      exact ⟨⟨fun h => absurd h (by simp [handle, destruct]), hs.steady.2⟩, fun h => ⟨(hs.active h).1, fun _ => .inl rfl⟩,
        fun _ h => absurd h (by simp [handle, destruct, live])⟩

/-- A run in which no handler ends in an exception. -/
abbrev Smooth (engine : Engine) (s : Source) (actions : List Action) : Prop :=
  Permitted (step engine) (fun s action => s.throws engine action = false) s actions

theorem run_sound (hparse : engine.parseJson [] = none) (hs : Sound engine smooth s) (actions : List Action) :
    Sound engine (smooth ∧ Smooth engine s actions) (run (step engine) s actions) := by
  induction actions generalizing smooth s with
  | nil => exact hs.mono And.left
  | cons action actions ih =>
    have hstep : Sound engine (smooth ∧ s.throws engine action = false) (step engine s action) :=
      step_sound hparse (hs.mono And.left) And.right
    exact (ih hstep).mono fun h => ⟨⟨h.1, h.2.1⟩, h.2.2⟩

/-- No request, no timer and no deferred call is outstanding. -/
def quiet (s : Source) : Bool :=
  s.activeRequest.isNone && !s.refreshTimer.running && !s.retryTimer.running && !s.eventReconnectTimer.running &&
    !s.eventLossTimer.running && s.deferred.isEmpty

/-- In every state that the source reaches, workspace actions are available only on a current snapshot; and where no handler
ended in an exception, a source with a live stream comes to rest only on a current snapshot with nothing queued. -/
theorem actions_current (hparse : engine.parseJson [] = none) (actions : List Action) :
    let s := run (step engine) {} actions
    (s.actionsAvailable = true → Current engine s.history s.eventGeneration s.snapshot) ∧
      (Smooth engine {} actions → s.live = true → s.quiet = true →
        Current engine s.history s.eventGeneration s.snapshot ∧ s.cycleActive = false ∧ s.refreshQueued = false) := by
  intro s
  have hstart : Sound engine True {} :=
    ⟨⟨fun h => absurd h (by simp), fun h => absurd h (by simp)⟩, fun h => absurd h (by simp),
      fun _ h => absurd h (by simp [live])⟩
  have hs : Sound engine (True ∧ Smooth engine {} actions) s := run_sound hparse hstart actions
  constructor
  · intro h
    simp only [actionsAvailable, Bool.and_eq_true, Bool.not_eq_true'] at h
    obtain ⟨⟨⟨⟨⟨havailable, hlive⟩, hidle⟩, hqueued⟩, hrefresh⟩, hretry⟩ := h
    refine (hs.current hlive hidle hqueued hrefresh hretry).resolve_right fun hlost => ?_
    exact absurd (hlost.2.symm.trans havailable) (by simp)
  · intro hsmooth hlive hquiet
    simp only [quiet, Bool.and_eq_true, Bool.not_eq_true', Option.isNone_iff_eq_none, List.isEmpty_iff] at hquiet
    obtain ⟨⟨⟨⟨⟨hrequest, hrefresh⟩, hretry⟩, _⟩, _⟩, hdeferred⟩ := hquiet
    have hidle : s.cycleActive = false := by
      by_contra hactive
      rcases (hs.active (by simpa using hactive)).2 ⟨trivial, hsmooth⟩ with h | h | ⟨d, hd, _⟩
      · exact absurd ((hs.steady.of_live hlive).2.symm.trans h) (by simp)
      · rw [hrequest] at h
        exact absurd h (by simp)
      · rw [hdeferred] at hd
        exact absurd hd (by simp)
    have hqueued : s.refreshQueued = false := by
      by_contra hqueued
      rcases (hs.idle hidle hlive).1 (by simpa using hqueued) with h | h
      · exact absurd (hrefresh.symm.trans h) (by simp)
      · rw [hdeferred] at h
        exact absurd h (by simp)
    refine ⟨(hs.current hlive hidle hqueued hrefresh hretry).resolve_right fun hlost => ?_, hidle, hqueued⟩
    exact hlost.1 ⟨trivial, hsmooth⟩

section Sample

def sampleStatus : QString := qstr "\x7b\"configProvider\":\"lua\"\x7d"

/-- A workspace record whose id is an object with a toString of its own. -/
def sampleStuckText : QString := qstr "[\x7b\"id\":\x7b\"toString\":0\x7d\x7d]"

/-- JSON.parse on the replies of a compositor without windows, and on one with an id that is no text. -/
def sampleEngine : Engine where
  parseJson text :=
    if text = sampleStatus then some (.object (sampleObject [("configProvider", .string (qstr "lua"))]))
    else if text = sampleStuckText then
      some (.array [.object (sampleObject [("id", .object (sampleObject [("toString", sampleNumber 0)]))])])
    else if text = qstr "[]" then some (.array [])
    else (consistentEngine (qstr "DP-1")).parseJson text
  integerOf _ := none

theorem sampleEngine_parses (text : QString) : sampleEngine.parseJson text =
    if text = sampleStatus then some (.object (sampleObject [("configProvider", .string (qstr "lua"))]))
    else if text = sampleStuckText then
      some (.array [.object (sampleObject [("id", .object (sampleObject [("toString", sampleNumber 0)]))])])
    else if text = qstr "[]" then some (.array [])
    else (consistentEngine (qstr "DP-1")).parseJson text := rfl

/-- The source starts, connects, and asks for its four replies. -/
def sampleActions (workspaces : QString) : List Action :=
  [.setRequestSocketPath (qstr "/request"), .setEventSocketPath (qstr "/events"), .completed true, .connected 0,
    .deferredCall 0 true, .refreshTriggered true, .requestSucceeded 1 sampleStatus, .deferredCall 0 true,
    .requestSucceeded 2 workspaces, .deferredCall 0 true, .requestSucceeded 3 (sampleMonitorText (qstr "DP-1")),
    .deferredCall 0 true, .requestSucceeded 4 (qstr "[]"), .deferredCall 0 true]

theorem sampleEngine_empty : sampleEngine.parseJson [] = none := by
  have hclients : [] ≠ sampleClientText := fun h => absurd (h ▸ sampleClientText_take) (by decide +kernel)
  have hothers : [] ≠ sampleStatus ∧ [] ≠ sampleStuckText ∧ [] ≠ qstr "[]" ∧ [] ≠ sampleWorkspaceText (qstr "DP-1") ∧
      [] ≠ sampleMonitorText (qstr "DP-1") := by decide +kernel
  obtain ⟨hstatus, hstuck, harray, hworkspaces, hmonitors⟩ := hothers
  rw [sampleEngine_parses, if_neg hstatus, if_neg hstuck, if_neg harray, consistentEngine_parses, if_neg hworkspaces,
    if_neg hmonitors, if_neg hclients]

theorem actions_current_sample :
    let s := run (step sampleEngine) {} (sampleActions (sampleWorkspaceText (qstr "DP-1")))
    s.actionsAvailable = true ∧ s.live = true ∧ s.quiet = true ∧
      Current sampleEngine s.history s.eventGeneration s.snapshot ∧ s.cycleActive = false ∧ s.refreshQueued = false := by
  intro s
  have hs : Smooth sampleEngine {} (sampleActions (sampleWorkspaceText (qstr "DP-1"))) ∧
      s.actionsAvailable = true ∧ s.live = true ∧ s.quiet = true := by decide +kernel
  obtain ⟨hsmooth, havailable, hlive, hquiet⟩ := hs
  have h := actions_current sampleEngine_empty (sampleActions (sampleWorkspaceText (qstr "DP-1")))
  exact ⟨havailable, hlive, hquiet, h.2 hsmooth hlive hquiet⟩

/-- An id that is no text leaves the cycle active for good: the stream is live and nothing is outstanding, also after another
event, which is queued and never looked at. -/
theorem actions_stuck :
    let s := run (step sampleEngine) {} (sampleActions sampleStuckText)
    let s' := step sampleEngine s (.eventLine 0 (qstr "workspace>>2"))
    (s.live = true ∧ s.quiet = true ∧ s.cycleActive = true) ∧
      s'.live = true ∧ s'.quiet = true ∧ s'.cycleActive = true ∧ s'.refreshQueued = true := by decide +kernel

end Sample

end Runs

end Source
end HyprShelld.Workspaces
