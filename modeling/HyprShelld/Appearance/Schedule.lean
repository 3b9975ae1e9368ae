import Mathlib.Data.List.Sort
import Mathlib.Data.Rat.Floor
import Mathlib.Tactic.Linarith

/-! The schedule that changes between light and dark at two times of the day, in a time zone whose
offset changes. -/
namespace HyprShelld.Appearance

def minutesPerDay : Nat := 24 * 60
def millisecondsPerDay : Int := 24 * 60 * 60 * 1000

/-- From the instant on, in milliseconds since the epoch, local time is ahead by the offset. -/
structure ZoneTransition where
  instant : Int
  offset : Int

structure TimeZone where
  standard : Int
  transitions : List ZoneTransition := []
  ordered : transitions.Pairwise fun a b => a.instant < b.instant

def offsetFrom (offset : Int) : List ZoneTransition → Int → Int
  | [], _ => offset
  | next :: rest, now => if now < next.instant then offset else offsetFrom next.offset rest now

/-- A local time that is skipped keeps to the offset before it, and of one that is repeated the first is taken. -/
def resolveFrom (offset : Int) : List ZoneTransition → Int → Int
  | [], local_ => local_ - offset
  | next :: rest, local_ =>
    if local_ - offset < next.instant || local_ - next.offset < next.instant then local_ - offset
    else resolveFrom next.offset rest local_

namespace TimeZone
variable (zone : TimeZone)

def offsetAt (now : Int) : Int := offsetFrom zone.standard zone.transitions now

def resolve (local_ : Int) : Int := resolveFrom zone.standard zone.transitions local_

/-- The days since the epoch, as the zone counts them. -/
def date (now : Int) : Int := (now + zone.offsetAt now) / millisecondsPerDay

/-- Within three days the offset moves by no more than a day, as where a zone crosses the date line. -/
structure Near : Prop where
  close : ∀ a b, a - b ≤ 3 * millisecondsPerDay → b - a ≤ 3 * millisecondsPerDay → zone.offsetAt a - zone.offsetAt b ≤ millisecondsPerDay
  far : ∀ a b, zone.offsetAt a - zone.offsetAt b ≤ 2 * millisecondsPerDay

end TimeZone

structure TimeBoundary where
  instant : Int
  darkAfter : Bool
  deriving DecidableEq

/-- An order by instants alone; those of one instant come in any order. -/
structure TimeSort where
  sort : List TimeBoundary → List TimeBoundary
  perm : ∀ boundaries, (sort boundaries).Perm boundaries
  ordered : ∀ boundaries, (sort boundaries).Pairwise fun a b => a.instant ≤ b.instant

inductive Status where
  | invalid
  | ready
  | noTransition
  deriving DecidableEq

structure Evaluation where
  valid : Bool := false
  isDark : Bool := false
  status : Status := .invalid
  nextTransition : Option Int := none
  nextRefresh : Option Int := none
  sunrise : Option Int := none
  sunset : Option Int := none
  /-- Zero is full night temperature and one is full day temperature. -/
  daylightBlend : ℚ := 0
  deriving DecidableEq

section Evaluating
variable (order : TimeSort) (zone : TimeZone) (now : Int) (darkStartMinute lightStartMinute : Nat)

def localBoundary (date : Int) (minuteOfDay : Nat) : Int :=
  zone.resolve (date * millisecondsPerDay + minuteOfDay * 60000)

def dateBoundaries (date : Int) : List TimeBoundary :=
  [⟨localBoundary zone date darkStartMinute, true⟩, ⟨localBoundary zone date lightStartMinute, false⟩]

/-- The boundaries of two days before and after the date. -/
def windowBoundaries (today : Int) : List TimeBoundary :=
  [-2, -1, 0, 1, 2].flatMap fun days => dateBoundaries zone darkStartMinute lightStartMinute (today + days)

/-- What the last boundary set, and the instant of the first one after now. -/
def currentAndNext (current : Option Bool) : List TimeBoundary → Option Bool × Option Int
  | [] => (current, none)
  | boundary :: rest =>
    if boundary.instant ≤ now then currentAndNext (some boundary.darkAfter) rest else (current, some boundary.instant)

def evaluateTime : Evaluation :=
  if minutesPerDay ≤ darkStartMinute || minutesPerDay ≤ lightStartMinute || darkStartMinute = lightStartMinute then {}
  else
    let today := zone.date now
    let boundaries := order.sort (windowBoundaries zone darkStartMinute lightStartMinute today)
    match currentAndNext now none boundaries with
    | (some isDark, some nextTransition) =>
      { valid := true
        isDark
        status := .ready
        nextTransition
        nextRefresh := nextTransition
        sunrise := localBoundary zone today lightStartMinute
        sunset := localBoundary zone today darkStartMinute
        daylightBlend := if isDark then 0 else 1 }
    | _ => {}

end Evaluating

/-- Without a schedule the display stays neutral. -/
def targetTemperature (evaluation : Evaluation) (nightTemperature dayTemperature : UInt32) (gradual : Bool) : Nat :=
  if !evaluation.valid then dayTemperature.toNat
  else
    let blend := if gradual then min (max evaluation.daylightBlend 0) 1 else if evaluation.isDark then 0 else 1
    let night : ℚ := nightTemperature.toNat
    let day : ℚ := dayTemperature.toNat
    min (round (night + (day - night) * blend)).toNat (2 ^ 32 - 1)

section Zones
variable {zone : TimeZone} {now : Int}

theorem offsetFrom_mem {offset : Int} {transitions : List ZoneTransition} :
    offsetFrom offset transitions now ∈ offset :: transitions.map (·.offset) := by
  induction transitions generalizing offset with
  | nil => exact List.mem_cons_self
  | cons next rest ih =>
    rw [offsetFrom]
    split_ifs
    · exact List.mem_cons_self
    · exact List.mem_cons_of_mem _ ih

theorem near_of_offsets (h : ∀ a ∈ zone.standard :: zone.transitions.map (·.offset),
    ∀ b ∈ zone.standard :: zone.transitions.map (·.offset), a - b ≤ millisecondsPerDay) : zone.Near := by
  have hoffsets (a b : Int) : zone.offsetAt a - zone.offsetAt b ≤ millisecondsPerDay := h _ offsetFrom_mem _ offsetFrom_mem
  refine ⟨fun a b _ _ => hoffsets a b, fun a b => ?_⟩
  have := hoffsets a b
  unfold millisecondsPerDay at *
  omega

theorem offsetFrom_before {offset : Int} {transitions : List ZoneTransition} (h : ∀ next ∈ transitions, now < next.instant) :
    offsetFrom offset transitions now = offset := by
  cases transitions with
  | nil => rfl
  | cons next rest => rw [offsetFrom, if_pos (h next List.mem_cons_self)]

/-- A local time is resolved with the offset in force at most a day before the instant found. -/
theorem resolveFrom_offset {offset local_ start : Int} {transitions : List ZoneTransition}
    (hordered : transitions.Pairwise fun a b => a.instant < b.instant) (hstart : ∀ next ∈ transitions, start < next.instant)
    (hlocal : start ≤ local_ - offset)
    (hclose : ∀ a b, start ≤ b → a = b + 1 →
      offsetFrom offset transitions a - offsetFrom offset transitions b ≤ millisecondsPerDay) :
    ∃ during, start ≤ during ∧ resolveFrom offset transitions local_ = local_ - offsetFrom offset transitions during ∧
      during ≤ resolveFrom offset transitions local_ ∧ resolveFrom offset transitions local_ ≤ during + millisecondsPerDay := by
  have hday : (0 : Int) ≤ millisecondsPerDay := by decide
  induction transitions generalizing offset start with
  | nil => exact ⟨local_ - offset, hlocal, rfl, le_rfl, by rw [resolveFrom]; omega⟩
  | cons next rest ih =>
    obtain ⟨hnext, hrest⟩ := List.pairwise_cons.mp hordered
    have hafter := hstart next List.mem_cons_self
    by_cases hbefore : local_ - offset < next.instant
    · refine ⟨local_ - offset, hlocal, ?_⟩
      rw [resolveFrom, offsetFrom, if_pos hbefore, if_pos (by simp [hbefore])]
      exact ⟨rfl, le_rfl, by omega⟩
    by_cases hskipped : local_ - next.offset < next.instant
    · -- The time does not exist: the offset is that of the last moment before the gap.
      have hgap := hclose next.instant (next.instant - 1) (by omega) (by omega)
      have hlast : offsetFrom offset (next :: rest) (next.instant - 1) = offset := by
        rw [offsetFrom, if_pos (by omega)]
      rw [hlast, offsetFrom, if_neg (lt_irrefl _), offsetFrom_before hnext] at hgap
      refine ⟨next.instant - 1, by omega, ?_⟩
      rw [hlast, resolveFrom, if_pos (by simp [hskipped])]
      exact ⟨rfl, by omega, by omega⟩
    · have hfrom {t : Int} (h : next.instant ≤ t) : offsetFrom offset (next :: rest) t = offsetFrom next.offset rest t := by
        rw [offsetFrom, if_neg (not_lt.mpr h)]
      obtain ⟨during, hduring, h⟩ := ih hrest hnext (not_lt.mp hskipped) fun a b hb hab => by
        have := hclose a b (by omega) hab
        rwa [hfrom hb, hfrom (by omega)] at this
      refine ⟨during, by omega, ?_⟩
      rw [hfrom hduring, resolveFrom, if_neg (by simp; omega)]
      exact h

/-- A boundary lies at the offset of about its time from its minute of its day. -/
theorem localBoundary_offset (hnear : zone.Near) (date : Int) (minute : Nat) : ∃ during,
    localBoundary zone date minute = date * millisecondsPerDay + minute * 60000 - zone.offsetAt during ∧
      during ≤ localBoundary zone date minute ∧ localBoundary zone date minute ≤ during + millisecondsPerDay := by
  obtain ⟨start, hstart, hlocal⟩ : ∃ start, (∀ next ∈ zone.transitions, start < next.instant) ∧
      start ≤ date * millisecondsPerDay + minute * 60000 - zone.standard := by
    cases htransitions : zone.transitions with
    | nil => exact ⟨_, by simp, le_rfl⟩
    | cons next rest =>
      have hordered := (List.pairwise_cons.mp (htransitions ▸ zone.ordered)).1
      refine ⟨min (next.instant - 1) (date * millisecondsPerDay + minute * 60000 - zone.standard),
        List.forall_mem_cons.mpr ⟨by omega, fun later hlater => ?_⟩, min_le_right _ _⟩
      have := hordered later hlater
      omega
  obtain ⟨during, -, h⟩ := resolveFrom_offset zone.ordered hstart hlocal fun a b _ hab =>
    hnear.close a b (by unfold millisecondsPerDay; omega) (by unfold millisecondsPerDay; omega)
  exact ⟨during, h⟩

theorem date_bounds (now : Int) : zone.date now * millisecondsPerDay ≤ now + zone.offsetAt now ∧
    now + zone.offsetAt now < (zone.date now + 1) * millisecondsPerDay := by
  have hday : (0 : Int) < millisecondsPerDay := by decide
  refine ⟨?_, ?_⟩
  · exact Int.ediv_mul_le _ hday.ne'
  · exact Int.lt_ediv_add_one_mul_self _ hday

variable {minute : Nat}

theorem minute_bounds (h : minute < minutesPerDay) : (minute : Int) * 60000 < millisecondsPerDay := by
  unfold minutesPerDay at h
  unfold millisecondsPerDay
  omega

/-- Two days ahead every boundary is still to come. -/
theorem localBoundary_future (hnear : zone.Near) {date : Int} (h : zone.date now + 2 ≤ date) : now < localBoundary zone date minute := by
  obtain ⟨during, hboundary, hduring, hbound⟩ := localBoundary_offset hnear date minute
  have hfar := hnear.far during now
  have hclose := hnear.close during now
  have hnow := (@date_bounds zone now).2
  unfold millisecondsPerDay at *
  omega

/-- Two days ago every boundary has passed. -/
theorem localBoundary_past (hnear : zone.Near) (hminute : minute < minutesPerDay) {date : Int} (h : date ≤ zone.date now - 2) :
    localBoundary zone date minute ≤ now := by
  obtain ⟨during, hboundary, hduring, hbound⟩ := localBoundary_offset hnear date minute
  have hfar := hnear.far now during
  have hclose := hnear.close now during
  have hnow := (@date_bounds zone now).1
  have hend := minute_bounds hminute
  unfold millisecondsPerDay at *
  omega

/-- The same minute of a later day comes no earlier. -/
theorem localBoundary_mono (hnear : zone.Near) {date later : Int} (h : date ≤ later) :
    localBoundary zone date minute ≤ localBoundary zone later minute := by
  rcases h.eq_or_lt with rfl | h
  · exact le_rfl
  · obtain ⟨during, hboundary, hduring, hbound⟩ := localBoundary_offset hnear date minute
    obtain ⟨during', hboundary', hduring', hbound'⟩ := localBoundary_offset hnear later minute
    have hfar := hnear.far during' during
    have hclose := hnear.close during' during
    unfold millisecondsPerDay at *
    omega

end Zones

section Boundaries
variable {order : TimeSort} {zone : TimeZone} {now : Int} {dark light : Nat} {boundary : TimeBoundary}

/-- The boundaries of all days. -/
def IsBoundary (zone : TimeZone) (dark light : Nat) (boundary : TimeBoundary) : Prop :=
  ∃ date, boundary ∈ dateBoundaries zone dark light date

theorem mem_dateBoundaries {date : Int} : boundary ∈ dateBoundaries zone dark light date ↔
    boundary = ⟨localBoundary zone date dark, true⟩ ∨ boundary = ⟨localBoundary zone date light, false⟩ := by
  simp [dateBoundaries]

theorem mem_windowBoundaries {today : Int} : boundary ∈ windowBoundaries zone dark light today ↔
    ∃ date, today - 2 ≤ date ∧ date ≤ today + 2 ∧ boundary ∈ dateBoundaries zone dark light date := by
  unfold windowBoundaries
  rw [List.mem_flatMap]
  constructor
  · rintro ⟨days, hdays, h⟩
    refine ⟨today + days, ?_, ?_, h⟩ <;>
    · simp only [List.mem_cons, List.not_mem_nil, or_false] at hdays
      omega
  · rintro ⟨date, hleast, hmost, h⟩
    refine ⟨date - today, ?_, by rwa [add_sub_cancel]⟩
    simp only [List.mem_cons, List.not_mem_nil, or_false]
    omega

/-- A boundary outside of the window stands behind one of the same kind inside, on its side of now. -/
theorem window_suffices (hnear : zone.Near) (hdark : dark < minutesPerDay) (hlight : light < minutesPerDay)
    (h : IsBoundary zone dark light boundary) : ∃ inside ∈ windowBoundaries zone dark light (zone.date now),
      inside.darkAfter = boundary.darkAfter ∧ (inside = boundary ∨ boundary.instant ≤ inside.instant ∧ inside.instant ≤ now ∨
        now < inside.instant ∧ inside.instant ≤ boundary.instant) := by
  obtain ⟨date, h⟩ := h
  have hkind {minute : Nat} (hminute : minute < minutesPerDay) (darkAfter : Bool)
      (hmem : ∀ date, (⟨localBoundary zone date minute, darkAfter⟩ : TimeBoundary) ∈ dateBoundaries zone dark light date) :
      ∃ inside ∈ windowBoundaries zone dark light (zone.date now), inside.darkAfter = darkAfter ∧
        (inside = ⟨localBoundary zone date minute, darkAfter⟩ ∨
          localBoundary zone date minute ≤ inside.instant ∧ inside.instant ≤ now ∨
          now < inside.instant ∧ inside.instant ≤ localBoundary zone date minute) := by
    rcases lt_or_ge date (zone.date now - 2) with hpast | hleast
    · refine ⟨_, mem_windowBoundaries.mpr ⟨zone.date now - 2, le_rfl, by omega, hmem _⟩, rfl, .inr (.inl ⟨?_, ?_⟩)⟩
      · exact localBoundary_mono hnear hpast.le
      · exact localBoundary_past hnear hminute le_rfl
    · rcases lt_or_ge (zone.date now + 2) date with hfuture | hmost
      · refine ⟨_, mem_windowBoundaries.mpr ⟨zone.date now + 2, by omega, le_rfl, hmem _⟩, rfl, .inr (.inr ⟨?_, ?_⟩)⟩
        · exact localBoundary_future hnear le_rfl
        · exact localBoundary_mono hnear hfuture.le
      · exact ⟨_, mem_windowBoundaries.mpr ⟨date, hleast, hmost, hmem _⟩, rfl, .inl rfl⟩
  rcases mem_dateBoundaries.mp h with rfl | rfl
  · exact hkind hdark true fun date => mem_dateBoundaries.mpr (.inl rfl)
  · exact hkind hlight false fun date => mem_dateBoundaries.mpr (.inr rfl)

end Boundaries

section Scanning
variable {now : Int} {boundaries : List TimeBoundary}

/-- What the scan of boundaries in order finds. -/
theorem currentAndNext_spec {current : Option Bool} (h : boundaries.Pairwise fun a b => a.instant ≤ b.instant) :
    ((∀ b ∈ boundaries, now < b.instant) ∧ (currentAndNext now current boundaries).1 = current ∨
      ∃ last ∈ boundaries, last.instant ≤ now ∧ (currentAndNext now current boundaries).1 = some last.darkAfter ∧
        ∀ b ∈ boundaries, b.instant ≤ now → b.instant ≤ last.instant) ∧
    ((∀ b ∈ boundaries, b.instant ≤ now) ∧ (currentAndNext now current boundaries).2 = none ∨
      ∃ first ∈ boundaries, now < first.instant ∧ (currentAndNext now current boundaries).2 = some first.instant ∧
        ∀ b ∈ boundaries, now < b.instant → first.instant ≤ b.instant) := by
  induction boundaries generalizing current with
  | nil => exact ⟨.inl ⟨by simp, rfl⟩, .inl ⟨by simp, rfl⟩⟩
  | cons boundary rest ih =>
    obtain ⟨hfirst, hrest⟩ := List.pairwise_cons.mp h
    rw [currentAndNext]
    split_ifs with hpassed
    · obtain ⟨hcurrent, hnext⟩ := @ih (some boundary.darkAfter) hrest
      refine ⟨.inr ?_, ?_⟩
      · rcases hcurrent with ⟨hall, hsame⟩ | ⟨last, hlast, hbefore, hsame, hall⟩
        · refine ⟨boundary, List.mem_cons_self, hpassed, hsame, List.forall_mem_cons.mpr ⟨fun _ => le_rfl, fun b hb hle => ?_⟩⟩
          exact absurd (hall b hb) (not_lt.mpr hle)
        · exact ⟨last, List.mem_cons_of_mem _ hlast, hbefore, hsame,
            List.forall_mem_cons.mpr ⟨fun _ => hfirst last hlast, hall⟩⟩
      · rcases hnext with ⟨hall, hnone⟩ | ⟨first, hmem, hafter, hsome, hall⟩
        · exact .inl ⟨List.forall_mem_cons.mpr ⟨hpassed, hall⟩, hnone⟩
        · exact .inr ⟨first, List.mem_cons_of_mem _ hmem, hafter, hsome,
            List.forall_mem_cons.mpr ⟨fun hlt => absurd hpassed (not_le.mpr hlt), hall⟩⟩
    · rw [not_le] at hpassed
      refine ⟨.inl ⟨List.forall_mem_cons.mpr ⟨hpassed, fun b hb => hpassed.trans_le (hfirst b hb)⟩, rfl⟩, .inr ?_⟩
      exact ⟨boundary, List.mem_cons_self, hpassed, rfl, List.forall_mem_cons.mpr ⟨fun _ => le_rfl, fun b hb _ => hfirst b hb⟩⟩

end Scanning

section Schedules
variable {order : TimeSort} {zone : TimeZone} {now : Int} {dark light : Nat}

/-- What the boundaries of all days call for: the state that the latest of them set, until the first one to come. -/
structure Scheduled (zone : TimeZone) (dark light : Nat) (now : Int) (evaluation : Evaluation) : Prop where
  valid : evaluation.valid = true ∧ evaluation.status = .ready
  current : ∃ last, IsBoundary zone dark light last ∧ last.instant ≤ now ∧ evaluation.isDark = last.darkAfter ∧
    ∀ b, IsBoundary zone dark light b → b.instant ≤ now → b.instant ≤ last.instant
  next : ∃ first, IsBoundary zone dark light first ∧ now < first.instant ∧ evaluation.nextTransition = some first.instant ∧
    ∀ b, IsBoundary zone dark light b → now < b.instant → first.instant ≤ b.instant
  refresh : evaluation.nextRefresh = evaluation.nextTransition
  temperature : ∀ nightTemperature dayTemperature gradual, targetTemperature evaluation nightTemperature dayTemperature gradual =
    if evaluation.isDark then nightTemperature.toNat else dayTemperature.toNat

theorem targetTemperature_time {evaluation : Evaluation} (hvalid : evaluation.valid = true)
    (hblend : evaluation.daylightBlend = if evaluation.isDark then 0 else 1) (nightTemperature dayTemperature : UInt32) (gradual : Bool) :
    targetTemperature evaluation nightTemperature dayTemperature gradual =
      if evaluation.isDark then nightTemperature.toNat else dayTemperature.toNat := by
  have hnight := nightTemperature.toNat_lt
  have hday := dayTemperature.toNat_lt
  have hround (n : Nat) : round (n : ℚ) = n := by simp
  unfold targetTemperature
  rw [hvalid, hblend]
  cases evaluation.isDark <;> cases gradual <;> simp [hround] <;> omega

theorem mem_window_boundary {today : Int} {b : TimeBoundary} (h : b ∈ windowBoundaries zone dark light today) :
    IsBoundary zone dark light b := by
  obtain ⟨date, -, -, hmem⟩ := mem_windowBoundaries.mp h
  exact ⟨date, hmem⟩

theorem scheduled_evaluateTime (hnear : zone.Near) (hdark : dark < minutesPerDay) (hlight : light < minutesPerDay) (hne : dark ≠ light) :
    Scheduled zone dark light now (evaluateTime order zone now dark light) := by
  have hmem {b : TimeBoundary} : b ∈ order.sort (windowBoundaries zone dark light (zone.date now)) ↔
      b ∈ windowBoundaries zone dark light (zone.date now) := (order.perm _).mem_iff
  have hdates {date : Int} : (⟨localBoundary zone date dark, true⟩ : TimeBoundary) ∈ dateBoundaries zone dark light date :=
    mem_dateBoundaries.mpr (.inl rfl)
  have hspec := @currentAndNext_spec now _ none (order.ordered (windowBoundaries zone dark light (zone.date now)))
  have hlast : ∃ last, last ∈ windowBoundaries zone dark light (zone.date now) ∧ last.instant ≤ now :=
    ⟨_, mem_windowBoundaries.mpr ⟨zone.date now - 2, le_rfl, by omega, hdates⟩, localBoundary_past hnear hdark le_rfl⟩
  have hfirst : ∃ first, first ∈ windowBoundaries zone dark light (zone.date now) ∧ now < first.instant :=
    ⟨_, mem_windowBoundaries.mpr ⟨zone.date now + 2, by omega, le_rfl, hdates⟩, localBoundary_future hnear le_rfl⟩
  unfold evaluateTime
  rw [if_neg (by simp [hdark, hlight, hne])]
  dsimp only
  generalize currentAndNext now none (order.sort (windowBoundaries zone dark light (zone.date now))) = found at hspec
  obtain ⟨current, next⟩ := found
  obtain ⟨hcurrent, hnext⟩ := hspec
  rcases hcurrent with ⟨hall, -⟩ | ⟨last, hlastMem, hpassed, hsome, hlatest⟩
  · obtain ⟨b, hb, hle⟩ := hlast
    exact absurd (hall b (hmem.mpr hb)) (not_lt.mpr hle)
  rcases hnext with ⟨hall, -⟩ | ⟨first, hfirstMem, hcoming, hsome', hearliest⟩
  · obtain ⟨b, hb, hlt⟩ := hfirst
    exact absurd (hall b (hmem.mpr hb)) (not_le.mpr hlt)
  obtain rfl : current = some last.darkAfter := hsome
  obtain rfl : next = some first.instant := hsome'
  refine ⟨⟨rfl, rfl⟩, ⟨last, mem_window_boundary (hmem.mp hlastMem), hpassed, rfl, fun b hb hle => ?_⟩,
    ⟨first, mem_window_boundary (hmem.mp hfirstMem), hcoming, rfl, fun b hb hlt => ?_⟩, rfl, targetTemperature_time rfl rfl⟩
  · obtain ⟨inside, hinside, -, rfl | ⟨hbefore, hbound⟩ | ⟨hafter, hbound⟩⟩ := window_suffices hnear hdark hlight hb
    · exact hlatest _ (hmem.mpr hinside) hle
    · exact hbefore.trans (hlatest _ (hmem.mpr hinside) hbound)
    · omega
  · obtain ⟨inside, hinside, -, rfl | ⟨hbefore, hbound⟩ | ⟨hafter, hbound⟩⟩ := window_suffices hnear hdark hlight hb
    · exact hearliest _ (hmem.mpr hinside) hlt
    · omega
    · exact (hearliest _ (hmem.mpr hinside) hafter).trans hbound

/-- Two different minutes of the day make a schedule, and it follows the boundaries of all days: the window of five days
misses none of them. -/
theorem evaluateTime_follows (hnear : zone.Near) :
    ((evaluateTime order zone now dark light).valid = true ↔ dark < minutesPerDay ∧ light < minutesPerDay ∧ dark ≠ light) ∧
      ((evaluateTime order zone now dark light).valid = true → Scheduled zone dark light now (evaluateTime order zone now dark light)) := by
  by_cases h : dark < minutesPerDay ∧ light < minutesPerDay ∧ dark ≠ light
  · have hscheduled := @scheduled_evaluateTime order zone now dark light hnear h.1 h.2.1 h.2.2
    exact ⟨iff_of_true hscheduled.valid.1 h, fun _ => hscheduled⟩
  · have hinvalid : (evaluateTime order zone now dark light).valid = false := by
      rw [evaluateTime, if_pos]
      simp only [Bool.or_eq_true, decide_eq_true_eq]
      omega
    rw [hinvalid]
    exact ⟨iff_of_false (by simp) h, by simp⟩

/-- What is called for stays the same until the first boundary to come. -/
theorem Scheduled.until {evaluation : Evaluation} {later : Int} (h : Scheduled zone dark light now evaluation) (hle : now ≤ later)
    (hnext : ∀ first, evaluation.nextTransition = some first → later < first) : Scheduled zone dark light later evaluation := by
  obtain ⟨last, hlast, hpassed, hsame, hlatest⟩ := h.current
  obtain ⟨first, hfirst, hcoming, hsome, hearliest⟩ := h.next
  have hbefore := hnext _ hsome
  refine ⟨h.valid, ⟨last, hlast, hpassed.trans hle, hsame, fun b hb hle => ?_⟩,
    ⟨first, hfirst, hbefore, hsome, fun b hb hlt => ?_⟩, h.refresh, h.temperature⟩
  · rcases le_or_gt b.instant now with hold | hnew
    · exact hlatest b hb hold
    · exact absurd (hearliest b hb hnew) (by omega)
  · exact hearliest b hb (hle.trans_lt hlt)

end Schedules

section Automation
variable {order : TimeSort} {zone : TimeZone} {now interval : Int} {dark light : Nat}

def considerRefresh (now interval : Int) : Option Int → Int
  | none => interval
  | some refresh => min interval (max 1000 (refresh - now))

/-- The time until everything is evaluated again, at most a minute. -/
def automationInterval (now : Int) (refreshes : List (Option Int)) : Int := refreshes.foldl (considerRefresh now) 60000

theorem considerRefresh_le {refresh : Option Int} : considerRefresh now interval refresh ≤ interval := by
  cases refresh with
  | none => exact le_rfl
  | some refresh => exact min_le_left _ _

theorem considerRefresh_ge {refresh : Option Int} (h : 1000 ≤ interval) : 1000 ≤ considerRefresh now interval refresh := by
  cases refresh with
  | none => exact h
  | some refresh => exact le_min h (le_max_left _ _)

theorem foldl_considerRefresh_le {refreshes : List (Option Int)} : refreshes.foldl (considerRefresh now) interval ≤ interval := by
  induction refreshes generalizing interval with
  | nil => exact le_rfl
  | cons refresh rest ih => exact ih.trans considerRefresh_le

theorem foldl_considerRefresh_ge {refreshes : List (Option Int)} (h : 1000 ≤ interval) :
    1000 ≤ refreshes.foldl (considerRefresh now) interval := by
  induction refreshes generalizing interval with
  | nil => exact h
  | cons refresh rest ih => exact ih (considerRefresh_ge h)

/-- The next evaluation comes no later than a refresh that is a second ahead. -/
theorem automationInterval_le {refreshes : List (Option Int)} {refresh : Int} (h : some refresh ∈ refreshes) :
    automationInterval now refreshes ≤ max 1000 (refresh - now) := by
  obtain ⟨before, after, rfl⟩ := List.append_of_mem h
  rw [automationInterval, List.foldl_append, List.foldl_cons]
  exact foldl_considerRefresh_le.trans (min_le_right _ _)

/-- The evaluations of a schedule beside any others: one follows the other when the timer says so, by `late` milliseconds
too late at most, or before. -/
structure Automation (order : TimeSort) (zone : TimeZone) (dark light : Nat) (late : Int) (evaluatedAt : Nat → Int) : Prop where
  rises : ∀ n, evaluatedAt n ≤ evaluatedAt (n + 1)
  onward : ∀ t, ∃ n, t < evaluatedAt n
  timely : ∀ n, ∃ refreshes, (evaluateTime order zone (evaluatedAt n) dark light).nextRefresh ∈ refreshes ∧
    evaluatedAt (n + 1) ≤ evaluatedAt n + automationInterval (evaluatedAt n) refreshes + late

theorem Automation.reaches {late : Int} {evaluatedAt : Nat → Int} (h : Automation order zone dark light late evaluatedAt)
    {t : Int} (ht : evaluatedAt 0 ≤ t) : ∃ n, evaluatedAt n ≤ t ∧ t < evaluatedAt (n + 1) := by
  -- The first evaluation after that time has one before it.
  have hfirst := Nat.find_spec (h.onward t)
  have hbefore (n : Nat) (hn : n < Nat.find (h.onward t)) : evaluatedAt n ≤ t := not_lt.mp (Nat.find_min (h.onward t) hn)
  cases hfind : Nat.find (h.onward t) with
  | zero =>
    rw [hfind] at hfirst
    omega
  | succ n =>
    rw [hfind] at hfirst hbefore
    exact ⟨n, hbefore n (by omega), hfirst⟩

/-- At any time the last evaluation calls for what the boundaries of all days did less than a second before, and the time by
which the timer was late. -/
theorem automation_lag {late t : Int} {evaluatedAt : Nat → Int} (hnear : zone.Near) (hdark : dark < minutesPerDay)
    (hlight : light < minutesPerDay) (hne : dark ≠ light) (hlate : 0 ≤ late)
    (h : Automation order zone dark light late evaluatedAt) (ht : evaluatedAt 0 ≤ t) :
    ∃ n s, evaluatedAt n ≤ t ∧ t < evaluatedAt (n + 1) ∧ s ≤ t ∧ t < s + 1000 + late ∧
      Scheduled zone dark light s (evaluateTime order zone (evaluatedAt n) dark light) := by
  obtain ⟨n, hbegun, hends⟩ := h.reaches ht
  obtain ⟨refreshes, hmem, htimely⟩ := h.timely n
  have hscheduled := @scheduled_evaluateTime order zone (evaluatedAt n) dark light hnear hdark hlight hne
  obtain ⟨first, -, hcoming, hnext, -⟩ := hscheduled.next
  rw [hscheduled.refresh, hnext] at hmem
  have hinterval := @automationInterval_le (evaluatedAt n) _ _ hmem
  -- Up to the first boundary nothing changes, and then the evaluation is due.
  refine ⟨n, min t (first.instant - 1), hbegun, hends, min_le_left _ _, by omega, hscheduled.until (by omega) fun other hother => ?_⟩
  obtain rfl := Option.some_inj.mp (hnext.symm.trans hother)
  omega

end Automation

section Sample

def byInstant : TimeSort where
  sort boundaries := boundaries.mergeSort fun a b => decide (a.instant ≤ b.instant)
  perm boundaries := List.mergeSort_perm boundaries _
  ordered boundaries := by
    refine (List.pairwise_mergeSort ?_ ?_ boundaries).imp fun h => of_decide_eq_true h
    · intro a b c hab hbc
      exact decide_eq_true ((of_decide_eq_true hab).trans (of_decide_eq_true hbc))
    · intro a b
      simpa using le_total a.instant b.instant

/-- An hour ahead, and two from the thirty-first of March 2024 on. -/
def springZone : TimeZone where
  standard := 3600000
  transitions := [⟨1711846800000, 7200000⟩]
  ordered := by simp

theorem springZone_near : springZone.Near := near_of_offsets (by decide)

/-- Half past two is skipped that day. -/
theorem evaluateTime_follows_spring :
    Scheduled springZone 150 1320 1711846800000 (evaluateTime byInstant springZone 1711846800000 150 1320) :=
  (evaluateTime_follows springZone_near).2 ((evaluateTime_follows springZone_near).1.mpr (by decide))

theorem automation_lag_spring : ∃ n s, 1711846799000 + 1000 * (n : Nat) ≤ (1711846800500 : Int) ∧ s ≤ 1711846800500 ∧
    1711846800500 < s + 1000 + 0 ∧ Scheduled springZone 150 1320 s (evaluateTime byInstant springZone (1711846799000 + 1000 * n) 150 1320) := by
  have hrun : Automation byInstant springZone 150 1320 0 fun n => 1711846799000 + 1000 * n := by
    refine ⟨fun n => by omega, fun t => ⟨(t - 1711846799000).toNat + 1, by omega⟩, fun n => ⟨_, List.mem_singleton_self _, ?_⟩⟩
    have := @foldl_considerRefresh_ge (1711846799000 + 1000 * n) 60000
      [(evaluateTime byInstant springZone (1711846799000 + 1000 * n) 150 1320).nextRefresh] (by omega)
    rw [automationInterval]
    omega
  obtain ⟨n, s, hbegun, -, h⟩ := automation_lag springZone_near (by decide) (by decide) (by decide) le_rfl hrun
    (show _ ≤ (1711846800500 : Int) by decide)
  exact ⟨n, s, hbegun, h⟩

end Sample

end HyprShelld.Appearance
