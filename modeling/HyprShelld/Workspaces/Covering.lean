import HyprShelld.Workspaces.Protocol

/-! The window that covers an output, chosen among any number of fullscreen windows. -/
namespace HyprShelld.Workspaces

section Code

def findMonitor (snapshot : Snapshot) (outputName : QString) : Option Monitor :=
  snapshot.monitors.find? (·.name = outputName)

def findWorkspace (snapshot : Snapshot) (outputName : QString) (workspaceId : Int) : Option Workspace :=
  snapshot.workspaces.find? fun w => w.monitorName = outputName && w.id = workspaceId

/-- Number.MAX_SAFE_INTEGER. -/
def maxSafeInteger : Nat := 9007199254740991

/-- The windows that may cover the monitor: the visible fullscreen ones of its workspace. -/
def mayCover (monitor : Monitor) (workspace : Workspace) (client : Client) : Bool :=
  client.mapped && !client.hidden && client.visible && client.fullscreenMode ≠ 0 &&
    client.workspaceId = workspace.id && client.workspaceName = workspace.name && client.monitorId = monitor.id

def priority (client : Client) : Nat :=
  if client.floating then 0 else if client.fullscreenHandler = qstr "default" then 1 else 2

structure Candidates where
  candidates : List Client := []
  coveringPriority : Nat := maxSafeInteger

/-- A better window than those before it replaces them. -/
def Candidates.consider (s : Candidates) (client : Client) : Candidates :=
  if s.coveringPriority < priority client then s
  else if priority client < s.coveringPriority then ⟨[client], priority client⟩
  else { s with candidates := s.candidates ++ [client] }

def lowestFocusHistory (candidates : List Client) : Int :=
  candidates.foldl (fun low c => if 0 ≤ c.focusHistoryId then min low c.focusHistoryId else low) maxSafeInteger

/-- The element of a list of length one. -/
def only {α : Type} : List α → Option α
  | [a] => some a
  | _ => none

def visibleWorkspaceCoveringMode (snapshot : Snapshot) (outputName : QString) : Int :=
  match findMonitor snapshot outputName with
  | none => 0
  | some monitor =>
    match findWorkspace snapshot outputName monitor.visibleWorkspaceId with
    | none => 0
    | some workspace =>
      if workspace.name ≠ monitor.visibleWorkspaceName ∨ workspace.hasFullscreen = false then 0
      else
        let candidates := ((snapshot.clients.filter (mayCover monitor workspace)).foldl Candidates.consider {}).candidates
        if candidates = [] then 0
        else
          let lastWindow := candidates.filter fun c =>
            !workspace.lastWindowAddress.isEmpty && c.address = workspace.lastWindowAddress
          let focused := candidates.filter fun c =>
            0 ≤ c.focusHistoryId && c.focusHistoryId = lowestFocusHistory candidates
          -- the first of the three lists that has a single window decides
          (((only candidates).or (only lastWindow)).or (only focused)).elim 0 (·.fullscreenMode)

end Code

section Order

theorem priority_le (client : Client) : priority client ≤ 2 := by
  unfold priority
  split_ifs <;> omega

/-- What the loop knows after some windows: their best priority, and who has it. -/
structure Considered (clients : List Client) (s : Candidates) : Prop where
  kept : s.candidates = clients.filter fun c => priority c = s.coveringPriority
  lowest : ∀ c ∈ clients, s.coveringPriority ≤ priority c
  reached : (clients = [] ∧ s.coveringPriority = maxSafeInteger) ∨ ∃ c ∈ clients, priority c = s.coveringPriority

theorem Considered.worse {clients : List Client} {s : Candidates} (h : Considered clients s) {client : Client}
    (hworse : s.coveringPriority < priority client) (hclients : clients ≠ []) : Considered (clients ++ [client]) s where
  kept := by simp [List.filter_append, h.kept, hworse.ne']
  lowest c hc := by
    rcases List.mem_append.1 hc with hc | hc
    · exact h.lowest c hc
    · obtain rfl := List.mem_singleton.1 hc
      exact hworse.le
  reached := by
    obtain ⟨c, hc, hpriority⟩ := h.reached.resolve_left fun hnil => hclients hnil.1
    exact .inr ⟨c, by simp [hc], hpriority⟩

theorem Considered.better {clients : List Client} {s : Candidates} (h : Considered clients s) {client : Client}
    (hbetter : priority client < s.coveringPriority) : Considered (clients ++ [client]) ⟨[client], priority client⟩ where
  kept := by
    have hnone : clients.filter (fun c => priority c = priority client) = [] := by
      simp only [List.filter_eq_nil_iff, decide_eq_true_eq]
      intro c hc hsame
      have hlow := h.lowest c hc
      omega
    simp [List.filter_append, hnone]
  lowest c hc := by
    rcases List.mem_append.1 hc with hc | hc
    · exact hbetter.le.trans (h.lowest c hc)
    · obtain rfl := List.mem_singleton.1 hc
      exact le_rfl
  reached := .inr ⟨client, by simp, rfl⟩

theorem Considered.equal {clients : List Client} {s : Candidates} (h : Considered clients s) {client : Client}
    (hequal : priority client = s.coveringPriority) :
    Considered (clients ++ [client]) { s with candidates := s.candidates ++ [client] } where
  kept := by simp [List.filter_append, h.kept, hequal]
  lowest c hc := by
    rcases List.mem_append.1 hc with hc | hc
    · exact h.lowest c hc
    · obtain rfl := List.mem_singleton.1 hc
      exact hequal.ge
  reached := .inr ⟨client, by simp, hequal⟩

theorem considered (clients : List Client) : Considered clients (clients.foldl Candidates.consider {}) := by
  induction clients using List.reverseRecOn with
  | nil => exact ⟨by simp, by simp, .inl ⟨rfl, rfl⟩⟩
  | append_singleton clients client ih =>
    rw [List.foldl_append, List.foldl_cons, List.foldl_nil]
    generalize clients.foldl Candidates.consider {} = s at ih
    unfold Candidates.consider
    split_ifs with hworse hbetter
    · refine ih.worse hworse fun hnil => ?_
      -- before the first window the bound is above every priority
      have hmax : s.coveringPriority = maxSafeInteger := by
        rcases ih.reached with ⟨_, hmax⟩ | ⟨c, hc, _⟩
        · exact hmax
        · simp [hnil] at hc
      have hsmall := priority_le client
      rw [hmax, maxSafeInteger] at hworse
      omega
    · exact ih.better hbetter
    · exact ih.equal (by omega)

theorem Considered.perm {clients clients' : List Client} (hperm : clients.Perm clients') {s s' : Candidates}
    (h : Considered clients s) (h' : Considered clients' s') : s.candidates.Perm s'.candidates := by
  rw [h.kept, h'.kept]
  rcases h.reached with ⟨rfl, _⟩ | ⟨c, hc, hpriority⟩
  · simp [List.nil_perm.1 hperm]
  · obtain ⟨c', hc', hpriority'⟩ := h'.reached.resolve_left fun hnil => by simp [hnil.1] at hperm; simp [hperm] at hc
    have hsame : s.coveringPriority = s'.coveringPriority := by
      apply le_antisymm
      · exact hpriority' ▸ h.lowest c' (hperm.mem_iff.2 hc')
      · exact hpriority ▸ h'.lowest c (hperm.mem_iff.1 hc)
    rw [hsame]
    exact hperm.filter _

theorem lowestFocusHistory_perm {candidates candidates' : List Client} (hperm : candidates.Perm candidates') :
    lowestFocusHistory candidates = lowestFocusHistory candidates' := by
  apply hperm.foldl_eq' fun c _ d _ low => ?_
  split_ifs <;> omega

theorem only_perm {α : Type} {l l' : List α} (hperm : l.Perm l') : only l = only l' := by
  match l, l' with
  | [], l' => rw [List.nil_perm.1 hperm]
  | [a], l' => rw [List.singleton_perm.1 hperm]
  | a :: b :: rest, [] => simp at hperm
  | a :: b :: rest, [c] => simpa using hperm.length_eq
  | a :: b :: rest, c :: d :: rest' => rfl

/-- The covering mode of an output does not depend on the order of the windows. -/
theorem visibleWorkspaceCoveringMode_perm {snapshot : Snapshot} {clients : List Client}
    (hperm : clients.Perm snapshot.clients) (outputName : QString) :
    visibleWorkspaceCoveringMode { snapshot with clients } outputName =
      visibleWorkspaceCoveringMode snapshot outputName := by
  unfold visibleWorkspaceCoveringMode
  have hmonitor : findMonitor { snapshot with clients } outputName = findMonitor snapshot outputName := rfl
  rw [hmonitor]
  cases findMonitor snapshot outputName with
  | none => rfl
  | some monitor =>
    have hworkspace (id : Int) : findWorkspace { snapshot with clients } outputName id = findWorkspace snapshot outputName id :=
      rfl
    dsimp only
    rw [hworkspace]
    cases findWorkspace snapshot outputName monitor.visibleWorkspaceId with
    | none => rfl
    | some workspace =>
      dsimp only
      have hcandidates := Considered.perm (hperm.filter (mayCover monitor workspace)) (considered _) (considered _)
      generalize ((clients.filter (mayCover monitor workspace)).foldl Candidates.consider {}).candidates = left at hcandidates ⊢
      generalize ((snapshot.clients.filter (mayCover monitor workspace)).foldl Candidates.consider {}).candidates = right
        at hcandidates ⊢
      rw [only_perm hcandidates, only_perm (hcandidates.filter _), lowestFocusHistory_perm hcandidates,
        only_perm (hcandidates.filter fun c => 0 ≤ c.focusHistoryId && c.focusHistoryId = lowestFocusHistory right)]
      by_cases hnil : left = []
      · subst hnil
        rw [List.nil_perm.1 hcandidates]
      · have hright : right ≠ [] := fun h => hnil (List.perm_nil.1 (h ▸ hcandidates))
        rw [if_neg hnil, if_neg hright]

end Order

end HyprShelld.Workspaces
