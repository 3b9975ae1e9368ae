import HyprShelld.Inspection.SessionRuns

/-! How many sessions there are, and that inspectors and sessions stay matched: who waits is waited for,
and no inspector is left behind. -/
namespace HyprShelld.Inspection
open Components

/-- The tokens of the sessions with their owners. -/
def owners (s : State) : List (QString × QString) := s.sessions.map fun e => (e.1, e.2.owner)

theorem countForSender_owners (sender : QString) (s : State) : countForSender sender s = (owners s).countP (·.2 = sender) := by
  rw [countForSender, owners, List.countP_map]
  rfl

/-- The unit of a name has ended, is told to, or never began. -/
def Entry.stops (unitName : QString) : Entry → Bool
  | .stopUnit u => u = unitName
  | .startRefused u => u = unitName
  | .jobRemoved u _ => u = unitName
  | _ => false

/-- A unit that was started ended or was told to, later. -/
def StoppedIn (log : List Entry) (unitName : QString) (request : LaunchRequest) : Prop :=
  ∃ before after, log = before ++ .startTransientUnit unitName request :: after ∧ ∃ e ∈ after, e.stops unitName = true

theorem StoppedIn.mono {log log' : List Entry} {unitName : QString} {request : LaunchRequest} (h : StoppedIn log unitName request)
    (hextends : log <+: log') : StoppedIn log' unitName request := by
  obtain ⟨before, after, rfl, e, he, hstops⟩ := h
  obtain ⟨more, rfl⟩ := hextends
  exact ⟨before, after ++ more, by simp, e, List.mem_append_left _ he, hstops⟩

theorem stoppedIn_say {log : List Entry} {unitName : QString} {request : LaunchRequest} {e : Entry}
    (hmem : .startTransientUnit unitName request ∈ log) (he : e.stops unitName = true) : StoppedIn (log ++ [e]) unitName request := by
  obtain ⟨before, after, rfl⟩ := List.append_of_mem hmem
  exact ⟨before, after ++ [e], by simp, e, List.mem_concat_self, he⟩

/-- Expired sessions are remembered, but not many of them. -/
def Remembered (expired : QMap Tombstone) : Prop := expired.Sorted ∧ expired.length ≤ maximumExpiredTombstones

/-- Neither a session nor an inspector is new. -/
structure Calm (s s' : State) : Prop where
  subscription : s'.subscription = s.subscription
  pending : ∀ t pending, s'.pendingByToken.lookup t = some pending → s.pendingByToken.lookup t = some pending
  owners : (owners s').Sublist (owners s)
  expired : Remembered s.expired → Remembered s'.expired

theorem Calm.refl (s : State) : Calm s s := ⟨rfl, fun _ _ => id, .refl _, id⟩

theorem Calm.trans {a b c : State} (h : Calm a b) (h' : Calm b c) : Calm a c :=
  ⟨h'.subscription.trans h.subscription, fun t pending ht => h.pending t pending (h'.pending t pending ht), h'.owners.trans h.owners,
    fun ha => h'.expired (h.expired ha)⟩

/-- Fewer sessions stay within the limits. -/
theorem Calm.limits {s s' : State} (h : Calm s s') (hactive : s.sessions.length ≤ maximumActiveSessions)
    (hsender : ∀ sender, countForSender sender s ≤ maximumSessionsPerSender) :
    s'.sessions.length ≤ maximumActiveSessions ∧ ∀ sender, countForSender sender s' ≤ maximumSessionsPerSender := by
  have hlength := h.owners.length_le
  rw [Inspection.owners, Inspection.owners, List.length_map, List.length_map] at hlength
  refine ⟨hlength.trans hactive, fun sender => ?_⟩
  have hbefore := hsender sender
  rw [countForSender_owners] at hbefore ⊢
  exact h.owners.countP_le.trans hbefore

/-- Every pending session but one that is being finished has its inspector, and every inspector that was started has ended, is
told to or is waited for. -/
structure Awaiting (finishing : Option QString) (s : State) : Prop where
  awaited : ∀ token session, s.sessions.lookup token = some session → session.state = .pending → some token ≠ finishing →
    (s.pendingByToken.lookup token).isSome = true
  stopped : ∀ unitName request, .startTransientUnit unitName request ∈ s.log →
    (s.pendingByToken.lookup request.token).isSome = true ∨ StoppedIn s.log unitName request

/-- Inspectors wait for the subscription before they are started. -/
def Submitted (s : State) : Prop := ∀ token pending, s.pendingByToken.lookup token = some pending →
  s.subscription = .pending ∧ pending.startSubmitted = false ∨ s.subscription = .ready ∧ pending.startSubmitted = true

theorem Submitted.calm {s s' : State} (h : Submitted s) (hcalm : Calm s s') : Submitted s' := by
  intro token pending hpending
  rw [hcalm.subscription]
  exact h token pending (hcalm.pending token pending hpending)

section Tombstones
variable {setting : Setting}

theorem remembered_prune {expired : QMap Tombstone} (h : Remembered expired) (now : Int) : Remembered (pruneExpired now expired) :=
  ⟨QMap.sorted_filter h.1 _, (List.length_filter_le _ _).trans h.2⟩

theorem length_filter_keys (m : QMap Tombstone) (keys : List QString) :
    (List.filter (fun e => !keys.contains e.1) m).length = (m.keys.filter fun k => !keys.contains k).length := by
  rw [QMap.keys, List.filter_map, List.length_map]
  rfl

theorem filter_notMem_take {keys : List QString} (h : keys.Nodup) (n : Nat) :
    (keys.filter fun k => !(keys.take n).contains k) = keys.drop n := by
  have hdisjoint := List.disjoint_take_drop h (Nat.le_refl n)
  calc (keys.filter fun k => !(keys.take n).contains k)
      = (keys.take n ++ keys.drop n).filter fun k => !(keys.take n).contains k := by rw [List.take_append_drop]
    _ = [] ++ keys.drop n := by
      rw [List.filter_append]
      congr 1
      · simp
      · rw [List.filter_eq_self]
        intro k hk
        simpa using fun hk' => hdisjoint hk' hk
    _ = keys.drop n := List.nil_append _

/-- What is dropped makes room. -/
theorem remembered_addExpired {expired : QMap Tombstone} (h : Remembered expired) (session : Session) (token : QString) (now : Int) :
    Remembered (addExpired setting session token now expired) := by
  unfold addExpired
  have hsorted := QMap.sorted_insert h.1 token ⟨session.owner, now + setting.timeToLiveMs⟩
  dsimp only
  generalize QMap.insert token ⟨session.owner, now + setting.timeToLiveMs⟩ expired = added at hsorted
  refine ⟨QMap.sorted_filter hsorted _, ?_⟩
  have hperm := setting.hashOrder_perm added.keys
  have hnodup := hperm.nodup_iff.mpr (QMap.nodup_of_sorted hsorted)
  have hlength : (setting.hashOrder added.keys).length = added.length := hperm.length_eq.trans (List.length_map _)
  rw [length_filter_keys, ← (hperm.filter _).length_eq, filter_notMem_take hnodup, List.length_drop, hlength]
  omega

end Tombstones

section Owners
variable {s : State} {token : QString} {session other : Session}

theorem owners_insert_same {m : QMap Session} (hm : m.Sorted) (h : m.lookup token = some session) (howner : other.owner = session.owner) :
    (QMap.insert token other m).map (fun e => (e.1, e.2.owner)) = m.map fun e => (e.1, e.2.owner) := by
  induction m with
  | nil => simp at h
  | cons e m ih =>
    obtain ⟨l, b⟩ := e
    obtain ⟨hfirst, hrest⟩ := List.pairwise_cons.mp hm
    rw [QMap.lookup_cons_ite] at h
    rw [QMap.insert]
    split_ifs at h ⊢ with heq hless
    · rw [List.map_cons, List.map_cons, howner, ← Option.some_inj.mp h, heq]
    · have hmem := hfirst _ (QMap.mem_of_lookup h)
      have := utf16Less_trans hmem hless
      simp [utf16Less_irrefl] at this
    · rw [List.map_cons, List.map_cons, ih hrest h]

theorem owners_insert_new {m : QMap Session} (h : m.lookup token = none) :
    ((QMap.insert token session m).map fun e => (e.1, e.2.owner)).Perm
      ((token, session.owner) :: m.map fun e => (e.1, e.2.owner)) := by
  induction m with
  | nil => exact .refl _
  | cons e m ih =>
    obtain ⟨l, b⟩ := e
    rw [QMap.lookup_cons_ite] at h
    rw [QMap.insert]
    split_ifs at h ⊢ with heq hless
    · exact .refl _
    · rw [List.map_cons, List.map_cons]
      exact ((ih h).cons _).trans (.swap _ _ _)

end Owners

section Steps
variable {setting : Setting} {unitOf : QString → QString} {start s s' : State} {token : QString} {session : Session} {now : Int}
  {skip : Option QString}

/-- What is said of another kind starts no unit. -/
theorem starts_of_say {e : Entry} (he : ∀ t, e.starts t = false) {unitName : QString} {request : LaunchRequest}
    (hmem : .startTransientUnit unitName request ∈ (s.say e).log) : .startTransientUnit unitName request ∈ s.log := by
  rcases List.mem_append.mp hmem with hmem | hmem
  · exact hmem
  · have hstarts := he request.token
    rw [← List.mem_singleton.mp hmem] at hstarts
    simp [Entry.starts] at hstarts

theorem Awaiting.say (h : Awaiting skip s) {e : Entry} (he : ∀ t, e.starts t = false) : Awaiting skip (s.say e) := by
  refine ⟨h.awaited, fun unitName request hmem => ?_⟩
  obtain hpending | hstopped := h.stopped unitName request (starts_of_say he hmem)
  · exact .inl hpending
  · exact .inr (hstopped.mono (List.prefix_append _ _))

theorem calm_say (s : State) (e : Entry) : Calm s (s.say e) := ⟨rfl, fun _ _ => id, .refl _, id⟩

theorem lookup_remove_ne {α : Type} {m : QMap α} {key k : QString} (h : k ≠ key) : (QMap.remove key m).lookup k = m.lookup k := by
  rw [QMap.lookup_remove, if_neg h]

/-- A session that is finished, or is out of the table. -/
theorem Awaiting.settle (h : Awaiting (some token) s) {sessions : QMap Session}
    (hother : ∀ t, t ≠ token → sessions.lookup t = s.sessions.lookup t)
    (hsettled : ∀ session, sessions.lookup token = some session → session.state ≠ .pending) :
    Awaiting none { s with sessions } := by
  refine ⟨fun t session ht hstate _ => ?_, h.stopped⟩
  have hne : t ≠ token := by
    rintro rfl
    exact hsettled session ht hstate
  rw [hother t hne] at ht
  exact h.awaited t session ht hstate (by simpa using hne)

/-- An inspector goes whose session goes too, and which is stopped if it was started. -/
theorem Awaiting.without (h : Awaiting skip s) (hsession : s'.sessions.lookup token = none)
    (hsessions : ∀ t, t ≠ token → s'.sessions.lookup t = s.sessions.lookup t)
    (hpending : ∀ t, t ≠ token → s'.pendingByToken.lookup t = s.pendingByToken.lookup t)
    (hlog : s.log <+: s'.log)
    (hstarts : ∀ unitName request, .startTransientUnit unitName request ∈ s'.log → .startTransientUnit unitName request ∈ s.log)
    (hstop : ∀ unitName request, .startTransientUnit unitName request ∈ s.log → request.token = token →
      StoppedIn s'.log unitName request) : Awaiting skip s' := by
  refine ⟨fun t session ht hstate hskip => ?_, fun unitName request hmem => ?_⟩
  · have hne : t ≠ token := by
      rintro rfl
      simp [hsession] at ht
    rw [hpending t hne]
    exact h.awaited t session (hsessions t hne ▸ ht) hstate hskip
  · by_cases hne : request.token = token
    · exact .inr (hstop unitName request (hstarts unitName request hmem) hne)
    · rw [hpending _ hne]
      obtain hpending | hstopped := h.stopped unitName request (hstarts unitName request hmem)
      · exact .inl hpending
      · exact .inr (hstopped.mono hlog)

theorem Invariant.starts_fresh (h : Invariant setting unitOf s) {pending : PendingLaunch}
    (hlookup : s.pendingByToken.lookup token = some pending) (hsubmitted : pending.startSubmitted = false) {unitName : QString}
    {request : LaunchRequest} (hmem : .startTransientUnit unitName request ∈ s.log) : request.token ≠ token := by
  rintro rfl
  have hfresh := (h.pending _ pending hlookup).fresh hsubmitted _ hmem
  simp [Entry.starts] at hfresh

theorem Invariant.starts_unit (h : Invariant setting unitOf s) {unitName : QString} {request : LaunchRequest}
    (hmem : .startTransientUnit unitName request ∈ s.log) : unitName = unitNameForToken request.token := by
  obtain ⟨before, after, hlog⟩ := List.append_of_mem hmem
  exact (h.log before _ after hlog).1

/-- What stops the unit of a token stops every unit that was started for it. -/
theorem Invariant.stopped_say (h : Invariant setting unitOf s) {e : Entry} (hstops : e.stops (unitNameForToken token) = true)
    {unitName : QString} {request : LaunchRequest} (hmem : .startTransientUnit unitName request ∈ s.log)
    (htoken : request.token = token) : StoppedIn (s.log ++ [e]) unitName request := by
  refine stoppedIn_say hmem ?_
  rw [h.starts_unit hmem, htoken]
  exact hstops

theorem calm_forget (s : State) (token : QString) (pending : PendingLaunch) : Calm s { s with
    tokenByJobPath := forgetJob pending s.tokenByJobPath
    pendingByToken := QMap.remove token s.pendingByToken } := by
  refine ⟨rfl, fun t other ht => ?_, .refl _, id⟩
  rw [QMap.lookup_remove] at ht
  split_ifs at ht
  exact ht

/-- What canceling does to the log and to other inspectors. -/
theorem launcherCancel_spec (h : Invariant setting unitOf s) : Calm s (launcherCancel token s) ∧
    (∀ t, t ≠ token → (launcherCancel token s).pendingByToken.lookup t = s.pendingByToken.lookup t) ∧
    s.log <+: (launcherCancel token s).log ∧
    (∀ unitName request, .startTransientUnit unitName request ∈ (launcherCancel token s).log →
      .startTransientUnit unitName request ∈ s.log) ∧
    (Awaiting skip s → ∀ unitName request, .startTransientUnit unitName request ∈ s.log → request.token = token →
      StoppedIn (launcherCancel token s).log unitName request) := by
  unfold launcherCancel
  cases hpending : s.pendingByToken.lookup token with
  | none =>
    refine ⟨.refl s, fun _ _ => rfl, List.prefix_rfl, fun _ _ => id, fun hawaiting unitName request hmem htoken => ?_⟩
    exact (hawaiting.stopped unitName request hmem).resolve_left (by simp [htoken, hpending])
  | some pending =>
    have hcalm := calm_forget s token pending
    dsimp only
    split_ifs with hsubmitted
    · refine ⟨hcalm.trans (calm_say _ _), fun t ht => lookup_remove_ne ht, List.prefix_append _ _,
        fun _ _ hmem => starts_of_say (fun _ => rfl) hmem, fun _ unitName request hmem htoken => h.stopped_say ?_ hmem htoken⟩
      exact decide_eq_true (h.pending token pending hpending).unitName
    · refine ⟨hcalm, fun t ht => lookup_remove_ne ht, List.prefix_rfl, fun _ _ => id, fun _ unitName request hmem htoken => ?_⟩
      exact absurd htoken (h.starts_fresh hpending (by simpa using hsubmitted) hmem)

/-- A session that leaves with its inspector. -/
theorem drop_spec (h : Invariant setting unitOf s) (hawaiting : Awaiting skip s) {e : Entry} (hstarts : ∀ t, e.starts t = false)
    {expired : QMap Tombstone} (hexpired : Remembered s.expired → Remembered expired) :
    Awaiting skip ((eraseSession token { launcherCancel token s with expired }).say e) ∧
      Calm s ((eraseSession token { launcherCancel token s with expired }).say e) := by
  obtain ⟨hcalm, hother, hlog, hsaid, hstop⟩ := @launcherCancel_spec setting unitOf s token skip h
  obtain ⟨-, hsessions, -⟩ := @Invariant.cancel setting unitOf s token h
  have hgone : Awaiting skip (eraseSession token { launcherCancel token s with expired }) := by
    refine hawaiting.without ?_ (fun t hne => ?_) hother hlog hsaid (hstop hawaiting)
    · rw [lookup_erase, if_pos rfl]
    · rw [lookup_erase, if_neg hne, hsessions]
  refine ⟨hgone.say hstarts, hcalm.subscription, hcalm.pending, ?_, hexpired⟩
  rw [owners, owners, ← hsessions]
  exact List.Sublist.map _ List.filter_sublist

theorem expireOne_spec (h : Invariant setting unitOf s) (hawaiting : Awaiting skip s) (token : QString) :
    Awaiting skip (expireOne setting now s token) ∧ Calm s (expireOne setting now s token) := by
  unfold expireOne
  cases hsession : s.sessions.lookup token with
  | none => exact ⟨hawaiting, .refl s⟩
  | some session =>
    dsimp only
    split_ifs
    · exact ⟨hawaiting, .refl s⟩
    · refine drop_spec h hawaiting (fun _ => rfl) fun hremembered => remembered_addExpired ?_ session token now
      exact (@launcherCancel_spec setting unitOf s token skip h).1.expired hremembered

/-- What holds with the invariant, and how far a step has gone from where it began. -/
structure Matching (setting : Setting) (unitOf : QString → QString) (skip : Option QString) (start s : State) : Prop where
  invariant : Invariant setting unitOf s
  awaiting : Awaiting skip s
  calm : Calm start s

theorem expireNow_matching (h : Matching setting unitOf skip start s) : Matching setting unitOf skip start (expireNow setting now s) := by
  unfold expireNow
  split_ifs
  · exact h
  · obtain ⟨hinvariant, hawaiting, hcalm⟩ := h
    have hpruned : Matching setting unitOf skip start { s with expired := pruneExpired now s.expired } := by
      refine ⟨⟨hinvariant.log, hinvariant.sorted, hinvariant.sessions, fun t pending ht => ?_, hinvariant.jobs, hinvariant.known⟩,
        ⟨hawaiting.awaited, hawaiting.stopped⟩, hcalm.trans ⟨rfl, fun _ _ => id, .refl _, fun h => remembered_prune h now⟩⟩
      obtain ⟨hunit, hrequest, hsession, hfresh⟩ := hinvariant.pending t pending ht
      exact ⟨hunit, hrequest, hsession, hfresh⟩
    refine foldl_keeps (fun s token hs => ?_) _ hpruned
    obtain ⟨hone, hcalm⟩ := @expireOne_spec setting unitOf s now skip hs.invariant hs.awaiting token
    exact ⟨(expireOne_invariant hs.invariant token).1, hone, hs.calm.trans hcalm⟩

/-- A session that is over while its inspector is out already. -/
theorem Awaiting.erase (h : Awaiting (some token) s) {e : Entry} (hstarts : ∀ t, e.starts t = false) :
    Awaiting none ((eraseSession token s).say e) := by
  refine Awaiting.say (h.settle (fun t ht => ?_) fun session ht => ?_) hstarts
  · exact lookup_remove_ne ht
  · rw [QMap.lookup_remove, if_pos rfl] at ht
    cases ht

theorem calm_erase (s : State) (token : QString) : Calm s (eraseSession token s) :=
  ⟨rfl, fun _ _ => id, List.Sublist.map _ List.filter_sublist, id⟩

/-- A session that is put back under its owner. -/
theorem calm_put (h : Invariant setting unitOf s) (hsession : s.sessions.lookup token = some session) {other : Session}
    (howner : other.owner = session.owner) : Calm s { s with sessions := QMap.insert token other s.sessions } := by
  refine ⟨rfl, fun _ _ => id, ?_, id⟩
  rw [owners, owners_insert_same h.sorted hsession howner]
  exact .refl _

end Steps

section Finishing
variable {setting : Setting} {unitOf : QString → QString} {start s : State} {token : QString} {finishing : Finishing}

/-- A session is finished once its inspector is out. -/
theorem launcherFinished_matching {result : LaunchResult} (howns : setting.ownsSpool = true)
    (h : Matching setting unitOf (some token) start s) (hpending : s.pendingByToken.lookup token = none)
    (hdone : result.success = true → .jobRemoved (unitNameForToken token) doneText ∈ s.log) (hclock : finishing.now ≤ finishing.later) :
    Matching setting unitOf none start (launcherFinished setting token result finishing s) := by
  obtain ⟨hinvariant, hawaiting, hcalm⟩ := h
  suffices hboth : Awaiting none (launcherFinished setting token result finishing s) ∧
      Calm start (launcherFinished setting token result finishing s) from
    ⟨launcherFinished_invariant hinvariant hpending hdone, hboth.1, hboth.2⟩
  unfold launcherFinished
  rw [if_neg (by simp [howns])]
  cases hsession : s.sessions.lookup token with
  | none => exact ⟨hawaiting.settle (fun _ _ => rfl) (by simp [hsession]), hcalm⟩
  | some session =>
    have hfail (name message : QString) : Awaiting none (failSession token session finishing name message s) ∧
        Calm start (failSession token session finishing name message s) :=
      ⟨hawaiting.erase fun _ => rfl, hcalm.trans ((calm_erase s token).trans (calm_say _ _))⟩
    dsimp only
    by_cases hstate : session.state ≠ .pending
    · rw [if_pos hstate]
      refine ⟨hawaiting.settle (fun _ _ => rfl) fun other hother => ?_, hcalm⟩
      rw [hsession, Option.some_inj] at hother
      exact hother ▸ hstate
    rw [if_neg hstate]
    by_cases hdue : session.expiresAtMs ≤ finishing.now
    · rw [if_pos hdue]
      obtain ⟨-, hexpired, hleft⟩ := @expireNow_invariant setting unitOf s finishing.later hinvariant
      obtain ⟨-, hawaiting', hcalm'⟩ := @expireNow_matching setting unitOf start s finishing.later _ ⟨hinvariant, hawaiting, hcalm⟩
      refine ⟨hawaiting'.settle (fun _ _ => rfl) fun other hother => ?_, hcalm'⟩
      -- A session that is due now is due later.
      have hlater := hleft howns token other hother
      obtain rfl := Option.some_inj.mp (hsession.symm.trans (hexpired.fewer token other hother))
      omega
    rw [if_neg hdue]
    by_cases hsuccess : (!result.success) = true
    · rw [if_pos hsuccess]
      exact hfail _ _
    rw [if_neg hsuccess]
    cases hload : session.loadSuccessfulOutputs setting token finishing.files with
    | error outputError => exact hfail _ _
    | ok complete =>
      obtain ⟨report, -, rfl⟩ := loadSuccessfulOutputs_ok hload
      refine ⟨Awaiting.say (Awaiting.say (hawaiting.settle (fun t ht => ?_) fun other hother => ?_) fun _ => rfl) fun _ => rfl,
        hcalm.trans ((calm_put hinvariant hsession ?_).trans ((calm_say _ _).trans (calm_say _ _)))⟩
      · rw [QMap.lookup_insert, if_neg ht]
      · rw [QMap.lookup_insert, if_pos rfl, Option.some_inj] at hother
        simp [← hother]
      · rfl

theorem launcherComplete_matching {result : LaunchResult} (howns : setting.ownsSpool = true)
    (h : Matching setting unitOf none start s)
    (hdone : result.success = true → .jobRemoved (unitNameForToken token) doneText ∈ s.log)
    (hstop : ∀ pending, s.pendingByToken.lookup token = some pending → ∀ unitName request,
      .startTransientUnit unitName request ∈ s.log → request.token = token → StoppedIn s.log unitName request)
    (hclock : finishing.now ≤ finishing.later) :
    Matching setting unitOf none start (launcherComplete setting token result finishing s) ∧
      (launcherComplete setting token result finishing s).pendingByToken.lookup token = none := by
  obtain ⟨hinvariant, hawaiting, hcalm⟩ := h
  unfold launcherComplete
  cases hpending : s.pendingByToken.lookup token with
  | none => exact ⟨⟨hinvariant, hawaiting, hcalm⟩, hpending⟩
  | some pending =>
    have hforgot := calm_forget s token pending
    have hgone : (QMap.remove token s.pendingByToken).lookup token = none := by rw [QMap.lookup_remove, if_pos rfl]
    have hwithout : Matching setting unitOf (some token)
        { s with
          tokenByJobPath := forgetJob pending s.tokenByJobPath
          pendingByToken := QMap.remove token s.pendingByToken }
        { s with
          tokenByJobPath := forgetJob pending s.tokenByJobPath
          pendingByToken := QMap.remove token s.pendingByToken } := by
      refine ⟨hinvariant.forget pending, ⟨fun t session ht hstate hne => ?_, fun unitName request hmem => ?_⟩, .refl _⟩
      · rw [lookup_remove_ne (by simpa using hne)]
        exact hawaiting.awaited t session ht hstate (by simp)
      · by_cases hne : request.token = token
        · exact .inr (hstop pending hpending unitName request hmem hne)
        · rw [lookup_remove_ne hne]
          exact hawaiting.stopped unitName request hmem
    obtain ⟨hinvariant', hawaiting', hcalm'⟩ :=
      @launcherFinished_matching setting unitOf _ _ token finishing result howns hwithout hgone hdone hclock
    refine ⟨⟨hinvariant', hawaiting', hcalm.trans (hforgot.trans hcalm')⟩, ?_⟩
    cases hleft : (launcherFinished setting token result finishing { s with
        tokenByJobPath := forgetJob pending s.tokenByJobPath
        pendingByToken := QMap.remove token s.pendingByToken }).pendingByToken.lookup token with
    | none => rfl
    | some other =>
      have hnone := hcalm'.pending token other hleft
      rw [hgone] at hnone
      cases hnone

end Finishing

/-- How the sessions and the inspectors stand between two events. -/
structure Matched (setting : Setting) (unitOf : QString → QString) (s : State) : Prop where
  invariant : Invariant setting unitOf s
  awaiting : Awaiting none s
  submitted : Submitted s
  active : s.sessions.length ≤ maximumActiveSessions
  perSender : ∀ sender, countForSender sender s ≤ maximumSessionsPerSender
  remembered : Remembered s.expired

section Arrivals
variable {setting : Setting} {unitOf : QString → QString} {s s' : State} {token : QString}

theorem Matched.calm (h : Matched setting unitOf s) (h' : Matching setting unitOf none s s') : Matched setting unitOf s' := by
  obtain ⟨hinvariant, hawaiting, hcalm⟩ := h'
  obtain ⟨hactive, hsender⟩ := hcalm.limits h.active h.perSender
  exact ⟨hinvariant, hawaiting, h.submitted.calm hcalm, hactive, hsender, hcalm.expired h.remembered⟩

theorem Matched.matching (h : Matched setting unitOf s) : Matching setting unitOf none s s := ⟨h.invariant, h.awaiting, .refl s⟩

/-- Submitting is of one inspector, which is waited for. -/
theorem submitStart_spec (h : Awaiting none s) (hinvariant : Invariant setting unitOf s) : Awaiting none (submitStart token s) ∧
    (submitStart token s).sessions = s.sessions ∧ (submitStart token s).expired = s.expired ∧
    (submitStart token s).subscription = s.subscription ∧
    ∀ t, (submitStart token s).pendingByToken.lookup t =
      if t = token then (s.pendingByToken.lookup t).map ({ · with startSubmitted := true }) else s.pendingByToken.lookup t := by
  unfold submitStart
  cases hlookup : s.pendingByToken.lookup token with
  | none =>
    refine ⟨h, rfl, rfl, rfl, fun t => ?_⟩
    split_ifs with heq
    · rw [heq, hlookup]
      rfl
    · rfl
  | some pending =>
    dsimp only
    split_ifs with hsubmitted
    · refine ⟨h, rfl, rfl, rfl, fun t => ?_⟩
      split_ifs with heq
      · obtain ⟨request, unitName, jobPath, startSubmitted⟩ := pending
        obtain rfl : startSubmitted = true := hsubmitted
        rw [heq, hlookup]
        rfl
      · rfl
    · have hpending (t : QString) : (QMap.insert token { pending with startSubmitted := true } s.pendingByToken).lookup t =
          if t = token then (s.pendingByToken.lookup t).map ({ · with startSubmitted := true }) else s.pendingByToken.lookup t := by
        rw [QMap.lookup_insert]
        split_ifs with heq
        · rw [heq, hlookup]
          rfl
        · rfl
      have hsome (t : QString) (ht : (s.pendingByToken.lookup t).isSome = true) :
          ((QMap.insert token { pending with startSubmitted := true } s.pendingByToken).lookup t).isSome = true := by
        rw [hpending]
        split_ifs
        · rwa [Option.isSome_map]
        · exact ht
      refine ⟨⟨fun t session ht hstate hne => hsome t (h.awaited t session ht hstate hne), fun unitName request hmem => ?_⟩,
        rfl, rfl, rfl, hpending⟩
      rcases List.mem_append.mp hmem with hmem | hmem
      · obtain hwaiting | hstopped := h.stopped unitName request hmem
        · exact .inl (hsome _ hwaiting)
        · exact .inr (hstopped.mono (List.prefix_append _ _))
      · obtain ⟨-, rfl⟩ := Entry.startTransientUnit.inj (List.mem_singleton.mp hmem)
        refine .inl (hsome _ ?_)
        rw [(hinvariant.pending token pending hlookup).request, hlookup]
        rfl

theorem submitStarts_spec (tokens : List QString) (h : Awaiting none s) (hinvariant : Invariant setting unitOf s) :
    Awaiting none (tokens.foldl (fun s token => submitStart token s) s) ∧
    (tokens.foldl (fun s token => submitStart token s) s).sessions = s.sessions ∧
    (tokens.foldl (fun s token => submitStart token s) s).expired = s.expired ∧
    (tokens.foldl (fun s token => submitStart token s) s).subscription = s.subscription ∧
    ∀ t pending, (tokens.foldl (fun s token => submitStart token s) s).pendingByToken.lookup t = some pending →
      (s.pendingByToken.lookup t).isSome = true ∧ (t ∈ tokens → pending.startSubmitted = true) ∧
        ((∀ other, s.pendingByToken.lookup t = some other → other.startSubmitted = true) → pending.startSubmitted = true) := by
  induction tokens generalizing s with
  | nil =>
    refine ⟨h, rfl, rfl, rfl, fun t pending ht => ⟨?_, by simp, fun hall => hall pending ht⟩⟩
    replace ht : s.pendingByToken.lookup t = some pending := ht
    rw [ht]
    rfl
  | cons token rest ih =>
    obtain ⟨hone, hsessions, hexpired, hsubscription, hpending⟩ := @submitStart_spec setting unitOf s token h hinvariant
    obtain ⟨hrest, hsessions', hexpired', hsubscription', hpending'⟩ := ih hone (submitStart_invariant hinvariant)
    refine ⟨hrest, hsessions'.trans hsessions, hexpired'.trans hexpired, hsubscription'.trans hsubscription, fun t pending ht => ?_⟩
    obtain ⟨hsome, hmem, hall⟩ := hpending' t pending ht
    rw [hpending t] at hsome hall
    by_cases heq : t = token
    · rw [if_pos heq] at hsome hall
      have hsubmitted : pending.startSubmitted = true := hall fun other hother => by
        obtain ⟨before, -, rfl⟩ := Option.map_eq_some_iff.mp hother
        rfl
      exact ⟨by rwa [Option.isSome_map] at hsome, fun _ => hsubmitted, fun _ => hsubmitted⟩
    · rw [if_neg heq] at hsome hall
      exact ⟨hsome, fun ht => hmem ((List.mem_cons.mp ht).resolve_left heq), hall⟩

/-- All inspectors are given up before any of them is started. -/
theorem giveUp_spec (howns : setting.ownsSpool = true) {result : QString → LaunchResult} {finishing : QString → Finishing}
    (hfailed : ∀ t, (result t).success = false) (hclock : ∀ t, (finishing t).now ≤ (finishing t).later) (tokens : List QString)
    (h : Matching setting unitOf none s s)
    (hwaits : ∀ t pending, s.pendingByToken.lookup t = some pending → pending.startSubmitted = false) :
    Matching setting unitOf none s
        (tokens.foldl (fun s t => launcherComplete setting t (result t) (finishing t) s) s) ∧
      ∀ t ∈ tokens, (tokens.foldl (fun s t => launcherComplete setting t (result t) (finishing t) s) s).pendingByToken.lookup t =
        none := by
  induction tokens generalizing s with
  | nil => exact ⟨h, by simp⟩
  | cons token rest ih =>
    obtain ⟨hone, hnone⟩ := @launcherComplete_matching setting unitOf s s token (finishing token) (result token) howns h
      (fun hsuccess => by simp [hfailed] at hsuccess)
      (fun pending hpending unitName request hmem htoken =>
        absurd htoken (h.invariant.starts_fresh hpending (hwaits token pending hpending) hmem)) (hclock token)
    obtain ⟨hrest, hgone⟩ := ih ⟨hone.invariant, hone.awaiting, .refl _⟩ fun t pending ht =>
      hwaits t pending (hone.calm.pending t pending ht)
    refine ⟨⟨hrest.invariant, hrest.awaiting, hone.calm.trans hrest.calm⟩, List.forall_mem_cons.mpr ⟨?_, hgone⟩⟩
    cases hleft : ((token :: rest).foldl (fun s t => launcherComplete setting t (result t) (finishing t) s) s).pendingByToken.lookup
        token with
    | none => rfl
    | some pending =>
      have hsome := hrest.calm.pending token pending hleft
      rw [hnone] at hsome
      cases hsome

theorem subscribeFinished_matched (howns : setting.ownsSpool = true) (h : Matched setting unitOf s)
    (hpending : s.subscription = .pending) (error : Option (QString × QString)) {finishing : QString → Finishing}
    (hclock : ∀ t, (finishing t).now ≤ (finishing t).later) :
    Matched setting unitOf (subscribeFinished setting error finishing s) := by
  have hwaits (t : QString) (pending : PendingLaunch) (ht : s.pendingByToken.lookup t = some pending) :
      pending.startSubmitted = false := by
    obtain ⟨-, hwaits⟩ | ⟨hready, -⟩ := h.submitted t pending ht
    · exact hwaits
    · rw [hpending] at hready
      cases hready
  have hmem (t : QString) : t ∈ setting.hashOrder s.pendingByToken.keys ↔ (s.pendingByToken.lookup t).isSome = true := by
    rw [(setting.hashOrder_perm _).mem_iff, ← QMap.contains_iff]
    rfl
  have hinvariant' := subscribeFinished_invariant h.invariant error finishing
  unfold subscribeFinished at hinvariant' ⊢
  cases error with
  | some error =>
    obtain ⟨⟨-, hawaiting, hcalm⟩, hgone⟩ := @giveUp_spec setting unitOf { s with subscription := .failed } howns
      (fun t => launchError error.1 (if error.2 = [] then qstr "The systemd subscription reply was invalid" else error.2)) finishing
      (fun _ => rfl) hclock (setting.hashOrder s.pendingByToken.keys)
      ⟨h.invariant.withSubscription .failed, ⟨h.awaiting.awaited, h.awaiting.stopped⟩, .refl _⟩ hwaits
    obtain ⟨hactive, hsender⟩ := hcalm.limits h.active h.perSender
    refine ⟨hinvariant', hawaiting, fun t pending ht => ?_, hactive, hsender, hcalm.expired h.remembered⟩
    have hsome : s.pendingByToken.lookup t = some pending := hcalm.pending t pending ht
    have hnone := hgone t ((hmem t).mpr (by rw [hsome, Option.isSome_some]))
    rw [hnone] at ht
    cases ht
  | none =>
    obtain ⟨hawaiting, hsessions, hexpired, hsubscription, hsubmitted⟩ :=
      @submitStarts_spec setting unitOf { s with subscription := .ready } (setting.hashOrder s.pendingByToken.keys)
        ⟨h.awaiting.awaited, h.awaiting.stopped⟩ (h.invariant.withSubscription .ready)
    refine ⟨hinvariant', hawaiting, fun t pending ht => .inr ⟨hsubscription, ?_⟩, ?_, fun sender => ?_, ?_⟩
    · obtain ⟨hsome, hall, -⟩ := hsubmitted t pending ht
      exact hall ((hmem t).mpr hsome)
    · dsimp only
      rw [hsessions]
      exact h.active
    · unfold countForSender
      dsimp only
      rw [hsessions]
      exact h.perSender sender
    · dsimp only
      rw [hexpired]
      exact h.remembered

theorem startFinished_matched (howns : setting.ownsSpool = true) (h : Matched setting unitOf s)
    {reply : Except (QString × QString) QString} (hreply : ∀ jobPath, reply = .ok jobPath → unitOf jobPath = unitNameForToken token)
    {finishing : Finishing} (hclock : finishing.now ≤ finishing.later) :
    Matched setting unitOf (startFinished setting token reply finishing s) := by
  have hinvariant' := startFinished_invariant h.invariant hreply finishing
  unfold startFinished at hinvariant' ⊢
  cases hlookup : s.pendingByToken.lookup token with
  | none => exact h
  | some pending =>
    rw [hlookup] at hinvariant'
    have hrefused : Invariant setting unitOf (s.say (.startRefused pending.unitName)) :=
      h.invariant.sayQuiet (by exact trivial) fun _ => ⟨rfl, rfl, rfl⟩
    have hfailed (name message : QString) : Matched setting unitOf (launcherComplete setting token (launchError name message) finishing
        (s.say (.startRefused pending.unitName))) := by
      refine h.calm (launcherComplete_matching howns ⟨hrefused, h.awaiting.say fun _ => rfl, calm_say _ _⟩
        (fun hsuccess => by simp [launchError] at hsuccess) (fun other _ unitName request hmem htoken => ?_) hclock).1
      refine h.invariant.stopped_say ?_ (starts_of_say (fun _ => rfl) hmem) htoken
      exact decide_eq_true (h.invariant.pending token pending hlookup).unitName
    cases reply with
    | error error => exact hfailed _ _
    | ok jobPath =>
      dsimp only at hinvariant' ⊢
      split_ifs at hinvariant' ⊢ with hempty
      · exact hfailed _ _
      have hsome (t : QString) (ht : (s.pendingByToken.lookup t).isSome = true) :
          ((QMap.insert token { pending with jobPath } s.pendingByToken).lookup t).isSome = true := by
        rw [QMap.lookup_insert]
        split_ifs
        · rfl
        · exact ht
      refine ⟨hinvariant', ⟨fun t session ht hstate hne => hsome t (h.awaiting.awaited t session ht hstate hne),
        fun unitName request hmem => (h.awaiting.stopped unitName request hmem).imp_left (hsome _)⟩, fun t other ht => ?_,
        h.active, h.perSender, h.remembered⟩
      rw [QMap.lookup_insert] at ht
      split_ifs at ht
      · obtain rfl := Option.some_inj.mp ht
        exact h.submitted token pending hlookup
      · exact h.submitted t other ht

theorem jobRemoved_matched (howns : setting.ownsSpool = true) (h : Matched setting unitOf s) {jobPath unitName : QString}
    (hunit : unitOf jobPath = unitName) (result : QString) {finishing : QString → Finishing}
    (hclock : ∀ t, (finishing t).now ≤ (finishing t).later) :
    Matched setting unitOf (jobRemoved setting jobPath unitName result finishing s) := by
  obtain ⟨hsaid, htoken⟩ := jobRemoved_known h.invariant hunit result
  have hcomplete {t : QString} (ht : unitNameForToken t = unitName) (success : Bool) (name message : QString)
      (hsuccess : success = true → result = doneText) : Matched setting unitOf (launcherComplete setting t ⟨success, name, message⟩
        (finishing t) { s.say (.jobRemoved unitName result) with tokenByJobPath := QMap.remove jobPath s.tokenByJobPath }) := by
    refine h.calm (launcherComplete_matching howns ⟨hsaid, ?_, ?_⟩ (fun htrue => ?_) (fun other _ u request hmem htoken => ?_)
      (hclock t)).1
    · exact ⟨h.awaiting.awaited, (h.awaiting.say fun _ => rfl).stopped⟩
    · exact ⟨rfl, fun _ _ => id, .refl _, id⟩
    · rw [ht, ← hsuccess htrue]
      exact List.mem_concat_self
    · refine h.invariant.stopped_say ?_ (starts_of_say (fun _ => rfl) hmem) htoken
      exact decide_eq_true ht.symm
  unfold jobRemoved
  dsimp only [State.say] at htoken hsaid hcomplete ⊢
  generalize (s.tokenByJobPath.lookup jobPath <|> (setting.hashOrder s.pendingByToken.keys).find? fun token =>
    (s.pendingByToken.lookup token).any (·.unitName = unitName)) = found at htoken ⊢
  cases found with
  | none =>
    refine h.calm ⟨hsaid, ⟨h.awaiting.awaited, fun u request hmem => ?_⟩, ⟨rfl, fun _ _ => id, .refl _, id⟩⟩
    exact (h.awaiting.say (fun _ => rfl)).stopped u request hmem
  | some t =>
    dsimp only
    by_cases hdone : result = qstr "done"
    · rw [if_pos hdone]
      exact hcomplete (htoken t rfl) _ _ _ fun _ => hdone
    · rw [if_neg hdone]
      exact hcomplete (htoken t rfl) _ _ _ fun hfalse => by simp at hfalse

end Arrivals

section Calls
variable {setting : Setting} {unitOf : QString → QString} {start s s' : State} {sender token : QString} {session : Session} {now : Int}

theorem Matching.say (h : Matching setting unitOf none start s) {e : Entry} (hinvariant : Invariant setting unitOf (s.say e))
    (hstarts : ∀ t, e.starts t = false) : Matching setting unitOf none start (s.say e) :=
  ⟨hinvariant, h.awaiting.say hstarts, h.calm.trans (calm_say _ _)⟩

theorem Matching.said (h : Matching setting unitOf none start s) {e : Entry} (he : ∀ t, e.starts t = false) :
    Awaiting none (s.say e) ∧ Calm start (s.say e) := ⟨h.awaiting.say he, h.calm.trans (calm_say _ _)⟩

theorem Matching.refuse (h : Matching setting unitOf none start s) (sender t : QString) (error : OperationError) :
    Matching setting unitOf none start (s.say (.refused sender t error)) := h.say (h.invariant.refuse _ _ _) fun _ => rfl

/-- A session that is not pending may go or change. -/
theorem Matching.settled (h : Matching setting unitOf none start s) (hsession : s.sessions.lookup token = some session) :
    Awaiting none (eraseSession token s) ∧ Calm start (eraseSession token s) ∧ ∀ other : Session, other.owner = session.owner →
      other.state ≠ .pending → Awaiting none { s with sessions := QMap.insert token other s.sessions } ∧
        Calm start { s with sessions := QMap.insert token other s.sessions } := by
  have hskip : Awaiting (some token) s :=
    ⟨fun t session ht hstate _ => h.awaiting.awaited t session ht hstate (by simp), h.awaiting.stopped⟩
  refine ⟨hskip.settle (fun t ht => lookup_remove_ne ht) fun other hother => ?_, h.calm.trans (calm_erase s token),
    fun other howner hstate => ⟨hskip.settle (fun t ht => ?_) fun put hput => ?_, h.calm.trans (calm_put h.invariant hsession howner)⟩⟩
  · rw [QMap.lookup_remove, if_pos rfl] at hother
    cases hother
  · rw [QMap.lookup_insert, if_neg ht]
  · rw [QMap.lookup_insert, if_pos rfl, Option.some_inj] at hput
    exact hput ▸ hstate

theorem lookup_matching (h : Matching setting unitOf none s s) (files : Files) :
    Matching setting unitOf none s (lookup setting sender token now files s) := by
  suffices hboth : Awaiting none (lookup setting sender token now files s) ∧ Calm s (lookup setting sender token now files s) from
    ⟨lookup_invariant h.invariant files, hboth.1, hboth.2⟩
  unfold lookup
  by_cases howns : (!setting.ownsSpool) = true
  · rw [if_pos howns]
    exact h.said fun _ => rfl
  rw [if_neg howns]
  have hexpired := @expireNow_matching setting unitOf s s now _ h
  dsimp only
  generalize expireNow setting now s = s' at hexpired
  cases hsession : s'.sessions.lookup token with
  | none => exact hexpired.said fun _ => rfl
  | some session =>
    dsimp only
    split_ifs with howner hcomplete
    · exact hexpired.said fun _ => rfl
    · cases hfiles : session.revalidateComplete setting files with
      | ok u => exact hexpired.said fun _ => rfl
      | error validationError =>
        obtain ⟨hawaiting, hcalm⟩ := (hexpired.settled hsession).2.2 { session with
          state := .failed
          errorName := managerError (qstr "InspectionUnavailable")
          errorMessage := validationError } rfl (by simp)
        exact ⟨(hawaiting.say fun _ => rfl).say fun _ => rfl, hcalm.trans ((calm_say _ _).trans (calm_say _ _))⟩
    · exact hexpired.said fun _ => rfl

theorem takeForInstall_matching (h : Matching setting unitOf none s s) (expected : QString) (files : Files)
    (leaseError : Option QString) :
    Matching setting unitOf none s (takeForInstall setting sender token expected now files leaseError s) := by
  suffices hboth : Awaiting none (takeForInstall setting sender token expected now files leaseError s) ∧
      Calm s (takeForInstall setting sender token expected now files leaseError s) from
    ⟨takeForInstall_invariant h.invariant expected files leaseError, hboth.1, hboth.2⟩
  unfold takeForInstall
  by_cases howns : (!setting.ownsSpool) = true
  · rw [if_pos howns]
    exact h.said fun _ => rfl
  rw [if_neg howns]
  have hexpired := @expireNow_matching setting unitOf s s now _ h
  dsimp only
  generalize expireNow setting now s = s' at hexpired
  cases hsession : s'.sessions.lookup token with
  | none => exact hexpired.said fun _ => rfl
  | some session =>
    obtain ⟨hawaiting, hcalm, -⟩ := hexpired.settled hsession
    have hgone {e : Entry} (he : ∀ t, e.starts t = false) :
        Awaiting none ((eraseSession token s').say e) ∧ Calm s ((eraseSession token s').say e) :=
      ⟨hawaiting.say he, hcalm.trans (calm_say _ _)⟩
    dsimp only
    by_cases howner : session.owner ≠ sender
    · rw [if_pos howner]
      exact hexpired.said fun _ => rfl
    rw [if_neg howner]
    by_cases hexpected : (!hasMatch digestPattern expected || expected ≠ session.archiveDigest) = true
    · rw [if_pos hexpected]
      exact hexpired.said fun _ => rfl
    rw [if_neg hexpected]
    cases hreport : session.report with
    | none => exact hexpired.said fun _ => rfl
    | some report =>
      dsimp only
      by_cases hstate : session.state ≠ .complete
      · rw [if_pos hstate]
        exact hexpired.said fun _ => rfl
      rw [if_neg hstate]
      cases hfiles : session.revalidateComplete setting files with
      | error validationError => exact hgone fun _ => rfl
      | ok u =>
        cases leaseError with
        | some error => exact hexpired.said fun _ => rfl
        | none => exact hgone fun _ => rfl

theorem cancel_matching (h : Matching setting unitOf none s s) :
    Matching setting unitOf none s (cancel setting sender token now s) := by
  suffices hboth : Awaiting none (cancel setting sender token now s) ∧ Calm s (cancel setting sender token now s) from
    ⟨cancel_invariant h.invariant, hboth.1, hboth.2⟩
  unfold cancel
  by_cases howns : (!setting.ownsSpool) = true
  · rw [if_pos howns]
    exact h.said fun _ => rfl
  rw [if_neg howns]
  have hexpired := @expireNow_matching setting unitOf s s now _ h
  dsimp only
  generalize expireNow setting now s = s' at hexpired
  cases hsession : s'.sessions.lookup token with
  | none => exact hexpired.said fun _ => rfl
  | some session =>
    dsimp only
    split_ifs
    · exact hexpired.said fun _ => rfl
    · obtain ⟨hawaiting, hcalm⟩ := @drop_spec setting unitOf s' token _ hexpired.invariant hexpired.awaiting (.cancelled sender token)
        (fun _ => rfl) (launcherCancel token s').expired (@launcherCancel_spec setting unitOf s' token none hexpired.invariant).1.expired
      exact ⟨hawaiting, hexpired.calm.trans hcalm⟩

theorem cancelOneForSender_matching (h : Matching setting unitOf none start s) (token : QString) :
    Matching setting unitOf none start (cancelOneForSender sender s token) := by
  suffices hboth : Awaiting none (cancelOneForSender sender s token) ∧ Calm start (cancelOneForSender sender s token) from
    ⟨cancelOneForSender_invariant h.invariant, hboth.1, hboth.2⟩
  unfold cancelOneForSender
  cases hsession : s.sessions.lookup token with
  | none => exact ⟨h.awaiting, h.calm⟩
  | some session =>
    dsimp only
    split_ifs
    · exact ⟨h.awaiting, h.calm⟩
    · obtain ⟨hawaiting, hcalm⟩ := @drop_spec setting unitOf s token _ h.invariant h.awaiting (.cancelledForSender sender token)
        (fun _ => rfl) (launcherCancel token s).expired (@launcherCancel_spec setting unitOf s token none h.invariant).1.expired
      exact ⟨hawaiting, h.calm.trans hcalm⟩

theorem cancelAllForSender_matching (h : Matching setting unitOf none s s) :
    Matching setting unitOf none s (cancelAllForSender setting sender s) := by
  unfold cancelAllForSender
  split_ifs
  · exact h
  · exact @foldl_keeps (Matching setting unitOf none s) _ (fun s t hs => cancelOneForSender_matching hs t) _ _ h

end Calls

section Runs
variable {setting : Setting} {unitOf : QString → QString} {s s' : State} {token : QString} {connected : Bool} {request : LaunchRequest}

/-- A launch waits for the subscription, or comes after it. -/
theorem launcherStart_submitted (h : launcherStart setting connected request s = .ok s') (hsubmitted : Submitted s) :
    s'.expired = s.expired ∧ Submitted s' := by
  unfold launcherStart at h
  split_ifs at h with _ _ hfailed
  obtain rfl := Except.ok.inj h
  by_cases hready : s.subscription = .ready
  · have hlookup : (QMap.insert request.token
        ({ request, unitName := unitNameForToken request.token } : PendingLaunch) s.pendingByToken).lookup request.token =
        some { request, unitName := unitNameForToken request.token } := by rw [QMap.lookup_insert, if_pos rfl]
    rw [if_pos hready, submitStart, hlookup]
    refine ⟨rfl, fun t pending ht => .inr ⟨hready, ?_⟩⟩
    simp only [State.say, Bool.false_eq_true, if_false, QMap.lookup_insert] at ht
    split_ifs at ht
    · rw [← Option.some_inj.mp ht]
    · obtain ⟨hpending, -⟩ | ⟨-, hstarted⟩ := hsubmitted t pending ht
      · rw [hready] at hpending
        cases hpending
      · exact hstarted
  · rw [if_neg hready]
    have hsubscribed (s' : State) : (ensureSubscribed s').pendingByToken = s'.pendingByToken ∧
        (ensureSubscribed s').expired = s'.expired ∧
        (s'.subscription ≠ .ready → s'.subscription ≠ .failed → (ensureSubscribed s').subscription = .pending) := by
      unfold ensureSubscribed
      split_ifs with hstarted
      · exact ⟨rfl, rfl, fun hready hfailed => by cases hs : s'.subscription <;> simp_all⟩
      · exact ⟨rfl, rfl, fun _ _ => rfl⟩
    obtain ⟨hpendings, hexpired, hsubscription⟩ := hsubscribed { s with
      pendingByToken := QMap.insert request.token { request, unitName := unitNameForToken request.token } s.pendingByToken }
    refine ⟨hexpired, fun t pending ht => .inl ⟨hsubscription hready hfailed, ?_⟩⟩
    rw [hpendings, QMap.lookup_insert] at ht
    split_ifs at ht
    · rw [← Option.some_inj.mp ht]
    · obtain ⟨-, hwaits⟩ | ⟨hstarted, -⟩ := hsubmitted t pending ht
      · exact hwaits
      · exact absurd hstarted hready

/-- A session is opened with its inspector. -/
theorem Awaiting.launched (h : Awaiting none s) {said : List Entry}
    (hsessions : ∀ t, t ≠ token → s'.sessions.lookup t = s.sessions.lookup t)
    (hlaunched : (s'.pendingByToken.lookup token).isSome = true)
    (hothers : ∀ t, t ≠ token → s'.pendingByToken.lookup t = s.pendingByToken.lookup t) (hlog : s'.log = s.log ++ said)
    (hstarts : ∀ e ∈ said, ∀ t, t ≠ token → e.starts t = false) : Awaiting none s' := by
  refine ⟨fun t session ht hstate _ => ?_, fun unitName request hmem => ?_⟩
  · by_cases heq : t = token
    · exact heq ▸ hlaunched
    · rw [hsessions t heq] at ht
      rw [hothers t heq]
      exact h.awaited t session ht hstate (by simp)
  · by_cases heq : request.token = token
    · exact .inl (heq ▸ hlaunched)
    · rw [hlog] at hmem ⊢
      rw [hothers _ heq]
      rcases List.mem_append.mp hmem with hmem | hmem
      · exact (h.stopped unitName request hmem).imp_right (·.mono (List.prefix_append _ _))
      · have hother := hstarts _ hmem request.token heq
        simp [Entry.starts] at hother

/-- One more session fits where there is room for it, and counts for its owner only. -/
theorem limits_of_room {sender : QString} (howners : (owners s').Perm ((token, sender) :: owners s))
    (hactive : s.sessions.length < maximumActiveSessions) (hroom : countForSender sender s < maximumSessionsPerSender)
    (hsender : ∀ other, countForSender other s ≤ maximumSessionsPerSender) :
    s'.sessions.length ≤ maximumActiveSessions ∧ ∀ other, countForSender other s' ≤ maximumSessionsPerSender := by
  have hlength := howners.length_eq
  rw [owners, owners, List.length_map, List.length_cons, List.length_map] at hlength
  refine ⟨by omega, fun other => ?_⟩
  have hcount := howners.countP_eq (·.2 = other)
  rw [List.countP_cons, ← countForSender_owners, ← countForSender_owners] at hcount
  rw [hcount]
  by_cases heq : sender = other
  · subst heq
    simp only [decide_true, if_true]
    omega
  · simp only [heq, decide_false, Bool.false_eq_true, if_false]
    exact hsender other

theorem beginInspection_matched {sender : QString} {now later : Int} {staging : Staging} (h : Matched setting unitOf s)
    (hfresh : ∀ token bytes, staging = .staged token bytes → ∀ e ∈ s.log, e.begins token = false) :
    Matched setting unitOf (beginInspection setting sender now staging later connected s) := by
  have hinvariant' := @beginInspection_invariant setting unitOf s sender now later staging connected h.invariant hfresh
  unfold beginInspection at hinvariant' ⊢
  split_ifs at hinvariant' ⊢ with hunavailable
  · exact h.calm (h.matching.refuse _ _ _)
  have hexpired := h.calm (@expireNow_matching setting unitOf s s now _ h.matching)
  dsimp only at hinvariant' ⊢
  generalize expireNow setting now s = s at hexpired hinvariant'
  split_ifs at hinvariant' ⊢ with hlimit
  · exact hexpired.calm (hexpired.matching.refuse _ _ _)
  cases staging with
  | failed error => exact hexpired.calm (hexpired.matching.refuse _ _ _)
  | staged token bytes =>
    dsimp only at hinvariant' ⊢
    split_ifs at hinvariant' ⊢ with htoken
    · exact hexpired.calm (hexpired.matching.refuse _ _ _)
    cases hstart : launcherStart setting connected (launchRequest setting token (setting.sha256 bytes)) { s with
        sessions := QMap.insert token
          { owner := sender
            archiveDigest := setting.sha256 bytes
            archiveSize := UInt64.ofNat bytes.length
            expiresAtMs := later + setting.timeToLiveMs } s.sessions } with
    | error launchError => exact hexpired.calm (hexpired.matching.refuse _ _ _)
    | ok s' =>
      rw [hstart] at hinvariant'
      obtain ⟨submitted, said, hlaunch, hlog, hsessions, -, hpendings⟩ := launcherStart_ok hstart
      have hlaunched : (s'.pendingByToken.lookup token).isSome = true := by
        rw [hpendings token, if_pos (by exact rfl)]
        rfl
      have hothers (t : QString) (ht : t ≠ token) : s'.pendingByToken.lookup t = s.pendingByToken.lookup t :=
        (hpendings t).trans (if_neg ht)
      obtain ⟨htombstones, hsubmitted⟩ := launcherStart_submitted hstart hexpired.submitted
      have hnew : s.sessions.lookup token = none := by
        rw [Bool.or_eq_true, not_or, QMap.contains] at htoken
        exact Option.not_isSome_iff_eq_none.mp htoken.2
      have howners : (owners s').Perm ((token, sender) :: owners s) := by
        rw [owners, hsessions]
        exact owners_insert_new hnew
      simp only [Bool.or_eq_true, decide_eq_true_eq, not_or, not_le] at hlimit
      obtain ⟨hactive, hsender⟩ := limits_of_room howners hlimit.1 hlimit.2 hexpired.perSender
      have hawaiting : Awaiting none s' := by
        refine hexpired.awaiting.launched (fun t ht => ?_) hlaunched hothers hlog fun e he => (hlaunch.quiet e he).2.1
        rw [hsessions, QMap.lookup_insert, if_neg ht]
      exact ⟨hinvariant', hawaiting.say fun _ => rfl, hsubmitted, hactive, hsender, htombstones ▸ hexpired.remembered⟩

/-- Subscribe is answered once, after it was asked for, and the clock does not run back while a session is finished. -/
def Orderly (unitOf : QString → QString) (s : State) : Event → Prop
  | .begin sender now staging later connected => Genuine unitOf s (.begin sender now staging later connected)
  | .subscribeFinished _ finishing => s.subscription = .pending ∧ ∀ t, (finishing t).now ≤ (finishing t).later
  | .startFinished token reply finishing =>
    Genuine unitOf s (.startFinished token reply finishing) ∧ finishing.now ≤ finishing.later
  | .jobRemoved jobPath unitName _ finishing => unitOf jobPath = unitName ∧ ∀ t, (finishing t).now ≤ (finishing t).later
  | _ => True

theorem step_matched (howns : setting.ownsSpool = true) (event : Event) (horderly : Orderly unitOf s event)
    (h : Matched setting unitOf s) : Matched setting unitOf (step setting s event) := by
  cases event with
  | begin sender now staging later connected =>
    refine beginInspection_matched h fun token bytes hstaging => ?_
    subst hstaging
    exact horderly
  | lookup sender token now files => exact h.calm (lookup_matching h.matching files)
  | takeForInstall sender token expected now files leaseError =>
    exact h.calm (takeForInstall_matching h.matching expected files leaseError)
  | cancel sender token now => exact h.calm (cancel_matching h.matching)
  | cancelAllForSender sender => exact h.calm (cancelAllForSender_matching h.matching)
  | expireNow now => exact h.calm (expireNow_matching h.matching)
  | subscribeFinished error finishing => exact subscribeFinished_matched howns h horderly.1 error horderly.2
  | startFinished token reply finishing =>
    refine startFinished_matched howns h (fun jobPath hreply => ?_) horderly.2
    subst hreply
    exact horderly.1
  | jobRemoved jobPath unitName result finishing => exact jobRemoved_matched howns h horderly.1 result horderly.2

theorem initial_matched : Matched setting unitOf {} :=
  ⟨initial_invariant, ⟨by simp, by simp⟩, fun _ _ h => by simp at h, Nat.zero_le _, fun _ => Nat.zero_le _,
    QMap.sorted_nil, Nat.zero_le _⟩

/-- Nothing is begun without the spool. -/
structure Idle (s : State) : Prop where
  sessions : s.sessions = []
  expired : s.expired = []
  pending : s.pendingByToken = []
  jobs : s.tokenByJobPath = []
  starts : ∀ unitName request, .startTransientUnit unitName request ∉ s.log

theorem Idle.say (h : Idle s) {e : Entry} (he : ∀ t, e.starts t = false) : Idle (s.say e) :=
  ⟨h.sessions, h.expired, h.pending, h.jobs, fun unitName request hmem => h.starts unitName request (starts_of_say he hmem)⟩

theorem hashOrder_nil : setting.hashOrder [] = [] := List.perm_nil.mp (setting.hashOrder_perm [])

theorem step_idle (howns : setting.ownsSpool = false) (event : Event) (h : Idle s) : Idle (step setting s event) := by
  have hrefused (sender token : QString) (error : OperationError) : Idle (s.say (.refused sender token error)) :=
    h.say fun _ => rfl
  cases event with
  | begin sender now staging later connected =>
    rw [step, beginInspection, if_pos (by simp [howns])]
    exact hrefused _ _ _
  | lookup sender token now files =>
    rw [step, lookup, if_pos (by simp [howns])]
    exact hrefused _ _ _
  | takeForInstall sender token expected now files leaseError =>
    rw [step, takeForInstall, if_pos (by simp [howns])]
    exact hrefused _ _ _
  | cancel sender token now =>
    rw [step, cancel, if_pos (by simp [howns])]
    exact hrefused _ _ _
  | cancelAllForSender sender =>
    rw [step, cancelAllForSender, if_pos (by simp [howns])]
    exact h
  | expireNow now =>
    rw [step, expireNow, if_pos (by simp [howns])]
    exact h
  | subscribeFinished error finishing =>
    have hnone (subscription : SubscriptionState) (f : State → QString → State) :
        Idle ((setting.hashOrder s.pendingByToken.keys).foldl f { s with subscription }) := by
      rw [h.pending, QMap.keys, List.map_nil, hashOrder_nil]
      exact ⟨h.sessions, h.expired, rfl, h.jobs, h.starts⟩
    cases error with
    | none => exact hnone _ _
    | some error => exact hnone _ _
  | startFinished token reply finishing =>
    rw [step, startFinished, h.pending]
    exact h
  | jobRemoved jobPath unitName result finishing =>
    have hsaid : Idle (s.say (.jobRemoved unitName result)) := h.say fun _ => rfl
    rw [step, jobRemoved, hsaid.pending, hsaid.jobs]
    simpa [QMap.keys, hashOrder_nil, QMap.remove] using ⟨hsaid.sessions, hsaid.expired, rfl, rfl, hsaid.starts⟩

/-- In any run at most eight sessions are open, two of one sender, and sixty-four expired ones are remembered; the inspectors that
are waited for are those of the pending sessions; and a unit that was started belongs to a pending session, or ended or was told to
later. -/
theorem inspectors_matched {events : List Event} (hrun : Permitted (step setting) (Orderly unitOf) {} events) :
    (run (step setting) {} events).sessions.length ≤ maximumActiveSessions ∧
    (∀ sender, countForSender sender (run (step setting) {} events) ≤ maximumSessionsPerSender) ∧
    (run (step setting) {} events).expired.length ≤ maximumExpiredTombstones ∧
    (∀ token, ((run (step setting) {} events).pendingByToken.lookup token).isSome = true ↔
      ∃ session, (run (step setting) {} events).sessions.lookup token = some session ∧ session.state = .pending) ∧
    ∀ unitName request, .startTransientUnit unitName request ∈ (run (step setting) {} events).log →
      (∃ pending, (run (step setting) {} events).pendingByToken.lookup request.token = some pending ∧
        pending.startSubmitted = true ∧ pending.unitName = unitName) ∨
      StoppedIn (run (step setting) {} events).log unitName request := by
  cases howns : setting.ownsSpool with
  | false =>
    have hidle : Idle (run (step setting) {} events) :=
      run_permitted (fun s event _ => step_idle howns event) ⟨rfl, rfl, rfl, rfl, by simp⟩ hrun
    generalize run (step setting) {} events = s at hidle ⊢
    refine ⟨by simp [hidle.sessions], fun sender => by simp [countForSender, hidle.sessions], by simp [hidle.expired], fun token => ?_,
      fun unitName request hmem => absurd hmem (hidle.starts unitName request)⟩
    simp [hidle.sessions, hidle.pending]
  | true =>
    have hmatched : Matched setting unitOf (run (step setting) {} events) :=
      run_permitted (fun s => step_matched howns) initial_matched hrun
    generalize run (step setting) {} events = s at hmatched ⊢
    refine ⟨hmatched.active, hmatched.perSender, hmatched.remembered.2, fun token => ⟨fun hsome => ?_, ?_⟩, fun unitName request hmem => ?_⟩
    · obtain ⟨pending, hpending⟩ := Option.isSome_iff_exists.mp hsome
      exact (hmatched.invariant.pending token pending hpending).session
    · rintro ⟨session, hsession, hstate⟩
      exact hmatched.awaiting.awaited token session hsession hstate (by simp)
    · refine (hmatched.awaiting.stopped unitName request hmem).imp_left fun hsome => ?_
      obtain ⟨pending, hpending⟩ := Option.isSome_iff_exists.mp hsome
      refine ⟨pending, hpending, ?_, ?_⟩
      · by_contra hwaits
        exact hmatched.invariant.starts_fresh hpending (by simpa using hwaits) hmem rfl
      · rw [(hmatched.invariant.pending _ pending hpending).unitName, hmatched.invariant.starts_unit hmem]

/-- The inspector of a package that was handed out has ended. -/
theorem inspectors_matched_sample : ∃ request,
    StoppedIn (run (step sampleSetting) {} sampleEvents).log (unitNameForToken sampleToken) request := by
  have horderly : Permitted (step sampleSetting) (Orderly fun _ => unitNameForToken sampleToken) {} sampleEvents :=
    ⟨List.forall_mem_nil _, ⟨by decide +kernel, fun _ => Int.le_refl 0⟩, ⟨rfl, Int.le_refl 0⟩, ⟨rfl, fun _ => Int.le_refl 500⟩,
      trivial, trivial⟩
  refine ⟨launchRequest sampleSetting sampleToken sampleDigest, ?_⟩
  refine ((inspectors_matched horderly).2.2.2.2 (unitNameForToken sampleToken) _ (by decide +kernel)).resolve_left ?_
  rintro ⟨pending, hpending, -⟩
  have hnone : (run (step sampleSetting) {} sampleEvents).pendingByToken.lookup
    (launchRequest sampleSetting sampleToken sampleDigest).token = none := by decide +kernel
  rw [hnone] at hpending
  cases hpending

end Runs

end HyprShelld.Inspection
