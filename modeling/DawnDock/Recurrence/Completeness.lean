import DawnDock.Recurrence.Search

/-!
When the transitions of a rule set lie 15 days apart, the search misses nothing: the
occurrence it resolves is the first policy instant after the anchor over all dates
(`resolve_isLeast`), and feeding results back as anchors enumerates the policy instants
(`enumerate_complete`).
-/

namespace DawnDock

open MachineInt LocalTime Calendar

/-- A schedule with the rules it names, whose transitions are at least 15 days apart. -/
structure Usable (schedule : WeeklyAlarmSchedule) (rules : TimezoneRules) : Prop where
  valid : schedule.Valid
  name_ne_nil : rules.name ≠ []
  version_ne_nil : rules.version ≠ []
  same_name : schedule.timezoneName = rules.name
  same_version : schedule.timezoneRulesVersion = rules.version
  accepted : hasValidTransitionChain rules = true
  apart : rules.transitions.IsChain fun earlier later =>
    earlier.atUtcSeconds.toInt + 15 * 86400 ≤ later.atUtcSeconds.toInt

/-- The instant stands for the requested time on some date of the schedule. -/
def PolicyInstant (schedule : WeeklyAlarmSchedule) (zone : Zone) (instant : Int) : Prop :=
  ∃ day, Selects schedule.isoWeekdayMask (weekday day) ∧
    zone.Policy 86400 (schedule.requested day) instant

/-- The dates of the search window have representable years. -/
def WindowFits (zone : Zone) (after : Int) : Prop :=
  ∀ dayDelta : Nat, dayDelta < 15 → CivilYearFits (anchorDay zone after + dayDelta)

section Window

variable {schedule : WeeklyAlarmSchedule} {rules : TimezoneRules} {afterUtcSeconds : Int64}
  {zone : Zone} {after day instant : Int}

theorem Usable.spread (usable : Usable schedule rules) :
    (rules.zone usable.accepted).Spread 86400 (7 * 86400) where
  toWithin := zone_within usable.accepted
  room := by decide
  apart := by
    have : IsTrans UtcOffsetTransition fun earlier later =>
        earlier.atUtcSeconds.toInt + 15 * 86400 ≤ later.atUtcSeconds.toInt :=
      ⟨fun _ _ _ first second => by omega⟩
    refine List.pairwise_map.mpr (usable.apart.pairwise.imp fun {earlier later} apart => ?_)
    simp only [UtcOffsetTransition.shift]
    omega

theorem Usable.searches (usable : Usable schedule rules)
    (fits : WindowFits (rules.zone usable.accepted) afterUtcSeconds.toInt) :
    Searches schedule rules afterUtcSeconds := by
  have bounds := (fits 0 (by decide)).bounds
  have wall := (zone_within usable.accepted).wall_mem afterUtcSeconds.toInt
  unfold anchorDay at bounds
  refine ⟨usable.valid, usable.name_ne_nil, usable.version_ne_nil, usable.same_name,
    usable.same_version, usable.accepted, ?_, ?_⟩
  · rintro rfl
    rw [Int64.toInt_maxValue] at *
    omega
  · omega

/-- The date's instants are at or before the anchor, if it has any. -/
theorem PassedOver.le (spread : zone.Spread 86400 (7 * 86400)) (valid : schedule.Valid)
    (passed : PassedOver schedule zone after day)
    (selected : Selects schedule.isoWeekdayMask (weekday day))
    (policy : zone.Policy 86400 (schedule.requested day) instant) : instant ≤ after := by
  obtain unselected | ⟨mapping, mapped, passed⟩ := passed
  · exact absurd selected unselected
  cases mapped with
  | moved mem skips shifted _ at_shift resumes =>
      cases policy with
      | moved mem' skips' same_day =>
          obtain rfl := spread.skips_unique mem mem' skips skips'
          rw [valid.day_requested] at same_day
          rw [at_shift, resumes] at passed
          obtain le | ⟨-, other_day⟩ := passed
          · exact le
          · exact absurd same_day other_day
      | shown kept _ => exact absurd ⟨_, mem, skips⟩ kept
  | shown kept unshifted first =>
      obtain le | ⟨shifted, -⟩ := passed
      · rw [policy.unique spread (.shown kept first)]
        exact le
      · simp [unshifted] at shifted

theorem ReportedFor.policy {result : ResolvedOccurrence} (valid : schedule.Valid)
    (reported : ReportedFor schedule zone after day result) :
    Selects schedule.isoWeekdayMask (weekday day) ∧
      zone.Policy 86400 (schedule.requested day) result.scheduledUtcSeconds.toInt ∧
      after < result.scheduledUtcSeconds.toInt := by
  obtain ⟨selected, mapping, mapped, later, same_day, reports⟩ := reported
  rw [reports.instant]
  refine ⟨selected, ?_, later⟩
  cases mapped with
  | moved mem skips _ _ at_shift resumes =>
      rw [at_shift]
      refine .moved mem skips ?_
      rw [← resumes, same_day, valid.day_requested]
  | shown kept _ first => exact .shown kept first

/-! ### The window holds an occurrence -/

theorem requested_add_week (schedule : WeeklyAlarmSchedule) (day : Int) :
    schedule.requested (day + 7) = schedule.requested day + 7 * 86400 := by
  unfold WeeklyAlarmSchedule.requested
  omega

theorem weekday_add_week (day : Int) : weekday (day + 7) = weekday day := by
  unfold weekday
  omega

/-- The requested time a week or more ahead stands for an instant ahead, unless it is
skipped. -/
theorem skipped_of_passedOver (spread : zone.Spread 86400 (7 * 86400)) (valid : schedule.Valid)
    (selected : Selects schedule.isoWeekdayMask (weekday day))
    (ahead : anchorDay zone after + 7 ≤ day) (passed : PassedOver schedule zone after day) :
    zone.Skipped (schedule.requested day) := by
  by_contra kept
  have stands : ¬ zone.Lost 86400 (schedule.requested day) := fun ⟨shift, mem, skips, _⟩ =>
    kept ⟨shift, mem, skips⟩
  obtain ⟨instant, policy⟩ := spread.toWithin.exists_policy stands
  have le := passed.le spread valid selected policy
  have lt : after < instant := spread.lt_of_wall_far policy (by
    unfold anchorDay WeeklyAlarmSchedule.requested at *
    omega)
  omega

theorem exists_selected (valid : schedule.Valid) (start : Int) :
    ∃ day, start ≤ day ∧ day < start + 7 ∧ Selects schedule.isoWeekdayMask (weekday day) := by
  have some_bit : ∀ mask : Fin 256, UInt8.ofNat mask ≠ 0 →
      UInt8.ofNat mask &&& ~~~kAllIsoWeekdays = 0 →
        ∃ index : Fin 7, (mask : Nat).testBit index = true := by decide +kernel
  obtain ⟨index, bit⟩ := some_bit ⟨schedule.isoWeekdayMask.toNat, schedule.isoWeekdayMask.toNat_lt⟩
    (by simpa using valid.mask_ne_zero) (by simpa using valid.mask_le)
  refine ⟨start + (index - weekday start) % 7, by omega, by omega, ?_⟩
  have same : weekday (start + (index - weekday start) % 7) = index := by
    unfold weekday
    omega
  rw [Selects, same]
  exact bit

/-- Of a window's dates on one weekday at most one is skipped, and only the first can
lie behind the anchor. -/
theorem not_all_passedOver (spread : zone.Spread 86400 (7 * 86400)) (valid : schedule.Valid) :
    ∃ dayDelta : Nat, dayDelta < 15 ∧
      ¬ PassedOver schedule zone after (anchorDay zone after + dayDelta) := by
  by_contra all
  push Not at all
  have passed (day : Int) (ge : anchorDay zone after ≤ day)
      (lt : day < anchorDay zone after + 15) : PassedOver schedule zone after day := by
    obtain ⟨dayDelta, eq⟩ := Int.eq_ofNat_of_zero_le (Int.sub_nonneg.mpr ge)
    rw [show day = anchorDay zone after + dayDelta by omega]
    exact all dayDelta (by omega)
  obtain ⟨day, ge, lt, selected⟩ := exists_selected valid (anchorDay zone after)
  have next_selected : Selects schedule.isoWeekdayMask (weekday (day + 7)) := by
    rwa [weekday_add_week]
  have skipped := skipped_of_passedOver spread valid next_selected (by omega)
    (passed (day + 7) (by omega) (by omega))
  rcases Int.lt_or_eq_of_le ge with later | today
  · -- a date after the anchor's, with the same time a week later skipped
    rw [requested_add_week] at skipped
    have kept : ¬ zone.Lost 86400 (schedule.requested day) := fun ⟨shift, mem, skips, _⟩ =>
      spread.not_skipped_add_period ⟨shift, mem, skips⟩ skipped
    obtain ⟨instant, policy⟩ := spread.toWithin.exists_policy kept
    have le := (passed day ge (by omega)).le spread valid selected policy
    have ahead : after < instant := spread.lt_of_skipped_add_period policy (by
      unfold anchorDay WeeklyAlarmSchedule.requested at *
      omega) skipped
    omega
  · have again : zone.Skipped (schedule.requested (day + 7 + 7)) := skipped_of_passedOver spread valid
      (by rwa [weekday_add_week]) (by omega) (passed (day + 7 + 7) (by omega) (by omega))
    rw [requested_add_week] at again
    exact spread.not_skipped_add_period skipped again

/-! ### The first policy instant -/

theorem findSome?_range {β : Type} {count : Nat} {f : Nat → Option β} {found : β}
    (eq : (List.range count).findSome? f = some found) :
    ∃ index < count, f index = some found ∧ ∀ earlier < index, f earlier = none := by
  induction count with
  | zero => cases eq
  | succ count ih =>
      rw [List.range_succ, List.findSome?_append] at eq
      cases before : (List.range count).findSome? f with
      | some first =>
          rw [before, Option.some_or] at eq
          obtain ⟨index, lt, rest⟩ := ih (before.trans eq)
          exact ⟨index, by omega, rest⟩
      | none =>
          rw [before, Option.none_or, List.findSome?_singleton] at eq
          exact ⟨count, by omega, eq, fun earlier lt =>
            List.findSome?_eq_none_iff.mp before earlier (List.mem_range.mpr lt)⟩

/-- The first reported date of the window, if any. -/
theorem window_first (usable : Usable schedule rules)
    (fits : WindowFits (rules.zone usable.accepted) afterUtcSeconds.toInt) :
    ∃ dayDelta : Nat, dayDelta < 15 ∧
      ReportedFor schedule (rules.zone usable.accepted) afterUtcSeconds.toInt
        (anchorDay (rules.zone usable.accepted) afterUtcSeconds.toInt + dayDelta)
        (resolveNextOccurrence schedule rules afterUtcSeconds) ∧
      ∀ earlier < dayDelta, PassedOver schedule (rules.zone usable.accepted) afterUtcSeconds.toInt
        (anchorDay (rules.zone usable.accepted) afterUtcSeconds.toInt + earlier) := by
  have searches := usable.searches fits
  have date {dayDelta : Nat} (lt : dayDelta < 15) := @resolveDate_cases schedule rules
    (windowDay rules afterUtcSeconds dayDelta) usable.accepted afterUtcSeconds usable.valid
    (by rw [windowDay_toInt searches lt]; exact fits dayDelta lt)
  obtain ⟨unusable, -⟩ | ⟨-, eq⟩ := @resolveNextOccurrence_cases schedule rules afterUtcSeconds
  · exact absurd searches unusable
  rw [eq]
  cases found : (List.range 15).findSome? fun dayDelta => resolveDate schedule rules
      afterUtcSeconds (windowDay rules afterUtcSeconds dayDelta) with
  | none =>
      obtain ⟨dayDelta, lt, kept⟩ := @not_all_passedOver schedule _ afterUtcSeconds.toInt
        usable.spread usable.valid
      refine absurd ?_ kept
      obtain ⟨-, passed⟩ | ⟨_, some, -⟩ := date lt
      · rwa [windowDay_toInt searches lt] at passed
      · have none := List.findSome?_eq_none_iff.mp found dayDelta (List.mem_range.mpr lt)
        rw [none] at some
        cases some
  | some result =>
      obtain ⟨dayDelta, lt, at_date, before⟩ := findSome?_range found
      refine ⟨dayDelta, lt, ?_, fun earlier lt' => ?_⟩
      · obtain ⟨none, -⟩ | ⟨_, some, reported⟩ := date lt
        · rw [none] at at_date
          cases at_date
        · obtain rfl := Option.some.inj (some.symm.trans at_date)
          rwa [windowDay_toInt searches lt] at reported
      · obtain ⟨-, passed⟩ | ⟨_, some, -⟩ := date (show earlier < 15 by omega)
        · rwa [windowDay_toInt searches (by omega)] at passed
        · rw [before earlier lt'] at some
          cases some

theorem resolve_isLeast (usable : Usable schedule rules)
    (fits : WindowFits (rules.zone usable.accepted) afterUtcSeconds.toInt) :
    (resolveNextOccurrence schedule rules afterUtcSeconds).status = .resolved ∧
      IsLeast {instant | PolicyInstant schedule (rules.zone usable.accepted) instant ∧
          afterUtcSeconds.toInt < instant}
        (resolveNextOccurrence schedule rules afterUtcSeconds).scheduledUtcSeconds.toInt := by
  obtain ⟨dayDelta, lt, reported, passed⟩ := window_first usable fits
  have status : (resolveNextOccurrence schedule rules afterUtcSeconds).status = .resolved := by
    obtain ⟨_, _, _, _, _, reports⟩ := reported
    exact reports.status
  obtain ⟨selected, policy, later⟩ := reported.policy usable.valid
  refine ⟨status, ⟨⟨_, selected, policy⟩, later⟩, ?_⟩
  rintro instant ⟨⟨day, day_selected, day_policy⟩, after_lt⟩
  have requested_day := usable.valid.day_requested
  by_cases window : anchorDay (rules.zone usable.accepted) afterUtcSeconds.toInt ≤ day
  · obtain before | rfl | behind := Int.lt_trichotomy day
      (anchorDay (rules.zone usable.accepted) afterUtcSeconds.toInt + dayDelta)
    · -- an earlier date of the window has been passed over
      obtain ⟨earlier, eq⟩ := Int.eq_ofNat_of_zero_le (Int.sub_nonneg.mpr window)
      have date : day = anchorDay (rules.zone usable.accepted) afterUtcSeconds.toInt + earlier := by
        omega
      rw [date] at day_selected day_policy
      have := (passed earlier (by omega)).le usable.spread usable.valid day_selected day_policy
      omega
    · exact le_of_eq (policy.unique usable.spread day_policy)
    · exact le_of_lt (policy.lt_of_day_lt usable.spread day_policy (by decide)
        (by rwa [requested_day, requested_day]))
  · -- the clock has gone past the dates before the anchor's
    have : _ ≤ afterUtcSeconds.toInt := day_policy.le_of_wall_lt usable.spread (by
      have := requested_day day
      unfold anchorDay at window
      omega)
    omega

end Window

/-! ### Enumeration -/

section Enumeration

variable {schedule : WeeklyAlarmSchedule} {rules : TimezoneRules}

/-- Each result is the next anchor. -/
def enumerate (schedule : WeeklyAlarmSchedule) (rules : TimezoneRules) (anchor : Int64) :
    Nat → Int64
  | 0 => anchor
  | count + 1 =>
    (resolveNextOccurrence schedule rules (enumerate schedule rules anchor count)).scheduledUtcSeconds

theorem enumerate_succ (schedule : WeeklyAlarmSchedule) (rules : TimezoneRules) (anchor : Int64)
    (count : Nat) : enumerate schedule rules anchor (count + 1) =
      enumerate schedule rules (resolveNextOccurrence schedule rules anchor).scheduledUtcSeconds
        count := by
  induction count with
  | zero => rfl
  | succ count ih => rw [enumerate, ih, enumerate]

/-- The windows of the first `count` anchors have representable dates. -/
def WindowsFit (schedule : WeeklyAlarmSchedule) (rules : TimezoneRules) (zone : Zone)
    (anchor : Int64) (count : Nat) : Prop :=
  ∀ index < count, WindowFits zone (enumerate schedule rules anchor index).toInt

variable (usable : Usable schedule rules) {anchor : Int64} {count : Nat}
  (fits : WindowsFit schedule rules (rules.zone usable.accepted) anchor count)

include fits

theorem enumerate_step {index : Nat} (lt : index < count) :
    IsLeast {instant | PolicyInstant schedule (rules.zone usable.accepted) instant ∧
        (enumerate schedule rules anchor index).toInt < instant}
      (enumerate schedule rules anchor (index + 1)).toInt :=
  (resolve_isLeast usable (fits index lt)).2

theorem enumerate_lt {first second : Nat} (lt : first < second) (le : second ≤ count) :
    (enumerate schedule rules anchor first).toInt <
      (enumerate schedule rules anchor second).toInt := by
  induction second with
  | zero => omega
  | succ second ih =>
      have step := (enumerate_step usable fits (show second < count by omega)).1.2
      rcases Nat.lt_or_eq_of_le (Nat.lt_succ_iff.mp lt) with before | rfl
      · have := ih before (by omega)
        omega
      · exact step

/-- The policy instants up to the last result are the results. -/
theorem policyInstant_iff (instant : Int) :
    (PolicyInstant schedule (rules.zone usable.accepted) instant ∧ anchor.toInt < instant ∧
        instant ≤ (enumerate schedule rules anchor count).toInt) ↔
      ∃ index < count, (enumerate schedule rules anchor (index + 1)).toInt = instant := by
  constructor
  · rintro ⟨policy, after, le⟩
    induction count with
    | zero =>
        unfold enumerate at le
        omega
    | succ count ih =>
        by_cases before : instant ≤ (enumerate schedule rules anchor count).toInt
        · obtain ⟨index, lt, eq⟩ := ih (fun index lt => fits index (by omega)) before
          exact ⟨index, by omega, eq⟩
        · have least := (enumerate_step usable fits (Nat.lt_succ_self count)).2
            ⟨policy, by omega⟩
          exact ⟨count, by omega, by omega⟩
  · rintro ⟨index, lt, rfl⟩
    refine ⟨(enumerate_step usable fits lt).1.1, ?_, ?_⟩
    · exact enumerate_lt usable fits (show 0 < index + 1 from Nat.succ_pos index) (by omega)
    · rcases Nat.lt_or_eq_of_le lt with before | last
      · exact le_of_lt (enumerate_lt usable fits before (le_refl count))
      · exact le_of_eq (by rw [← last])

omit fits

/-- Every policy instant is reached while the windows fit. -/
theorem exists_enumerate {instant : Int}
    (policy : PolicyInstant schedule (rules.zone usable.accepted) instant)
    (after : anchor.toInt < instant)
    (all_fit : ∀ between : Int64, anchor.toInt ≤ between.toInt → between.toInt < instant →
      WindowFits (rules.zone usable.accepted) between.toInt) :
    ∃ index, WindowsFit schedule rules (rules.zone usable.accepted) anchor (index + 1) ∧
      (enumerate schedule rules anchor (index + 1)).toInt = instant := by
  -- on the seconds left to the instant
  induction left : (instant - anchor.toInt).toNat using Nat.strong_induction_on generalizing anchor
  rename_i _ ih
  have step := (resolve_isLeast usable (all_fit anchor (le_refl _) after)).2
  have later := step.1.2
  rcases Int.lt_or_eq_of_le (step.2 ⟨policy, after⟩) with before | reached
  · obtain ⟨index, fits, eq⟩ := ih _ (by omega) before
      (fun between ge lt => all_fit between (by omega) lt) rfl
    refine ⟨index + 1, ?_, by rw [enumerate_succ]; exact eq⟩
    rintro (_ | earlier) lt
    · exact all_fit anchor (le_refl _) after
    · rw [enumerate_succ]
      exact fits earlier (by omega)
  · refine ⟨0, ?_, reached⟩
    rintro earlier lt
    obtain rfl : earlier = 0 := by omega
    exact all_fit anchor (le_refl _) after

end Enumeration

/-- The search is complete and minimal, and iterating it enumerates the policy. -/
theorem resolve_complete {schedule : WeeklyAlarmSchedule} {rules : TimezoneRules}
    (usable : Usable schedule rules) :
    (∀ afterUtcSeconds : Int64,
      WindowFits (rules.zone usable.accepted) afterUtcSeconds.toInt →
      (resolveNextOccurrence schedule rules afterUtcSeconds).status = .resolved ∧
        IsLeast {instant | PolicyInstant schedule (rules.zone usable.accepted) instant ∧
            afterUtcSeconds.toInt < instant}
          (resolveNextOccurrence schedule rules afterUtcSeconds).scheduledUtcSeconds.toInt) ∧
    (∀ anchor count, WindowsFit schedule rules (rules.zone usable.accepted) anchor count →
      (∀ first second, first < second → second ≤ count →
        enumerate schedule rules anchor first < enumerate schedule rules anchor second) ∧
      ∀ instant, (PolicyInstant schedule (rules.zone usable.accepted) instant ∧
          anchor.toInt < instant ∧ instant ≤ (enumerate schedule rules anchor count).toInt) ↔
        ∃ index < count, (enumerate schedule rules anchor (index + 1)).toInt = instant) ∧
    ∀ (anchor : Int64) instant,
      PolicyInstant schedule (rules.zone usable.accepted) instant → anchor.toInt < instant →
      (∀ between : Int64, anchor.toInt ≤ between.toInt → between.toInt < instant →
        WindowFits (rules.zone usable.accepted) between.toInt) →
      ∃ index, WindowsFit schedule rules (rules.zone usable.accepted) anchor (index + 1) ∧
        (enumerate schedule rules anchor (index + 1)).toInt = instant := by
  refine ⟨fun _ fits => resolve_isLeast usable fits, fun anchor count fits => ⟨?_, ?_⟩,
    fun _ _ policy after all_fit => exists_enumerate usable policy after all_fit⟩
  · exact fun first second lt le => Int64.lt_iff_toInt_lt.mpr (enumerate_lt usable fits lt le)
  · exact policyInstant_iff usable fits

theorem newYork_usable : Usable newYorkAlarm newYorkRules where
  valid := ⟨by decide, by decide, by decide, by decide⟩
  name_ne_nil := by decide
  version_ne_nil := by decide
  same_name := rfl
  same_version := rfl
  accepted := by decide +kernel
  apart := .singleton _

theorem resolve_complete_spring_gap :
    (resolveNextOccurrence newYorkAlarm newYorkRules 1772928000).status = .resolved ∧
      IsLeast {instant | PolicyInstant newYorkAlarm
          (newYorkRules.zone newYork_usable.accepted) instant ∧ 1772928000 < instant}
        (resolveNextOccurrence newYorkAlarm newYorkRules 1772928000).scheduledUtcSeconds.toInt :=
  (resolve_complete newYork_usable).1 1772928000 (by
    have window : ∀ dayDelta : Nat, dayDelta < 15 →
        CivilYearFits (1772910000 / 86400 + dayDelta) := by decide +kernel
    exact window)

end DawnDock
