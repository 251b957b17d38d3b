import DawnDock.Recurrence.Parity
import DawnDock.Recurrence.Soundness

/-!
The resolver of the companion app on raw schedules (`recurrence.dart`).

Its checks have no lower bounds: a schedule that is not negative in hour or minute is a
device's, and resolves soundly (`honors_of_nonneg`); one that is goes through the wrapped
seconds of the requested time, and is caught only where these put every date out of range
(`fails_closed_iff`).
-/

namespace DawnDock

open MachineInt Calendar

namespace App

/-- The mask selects the weekday, 0 for Monday. -/
def Selects (mask : Int64) (weekday : Int) : Prop := mask &&& (1 <<< Int64.ofInt weekday) ≠ 0

/-- What a resolved occurrence of a raw schedule asserts on its local date. -/
structure ResolvedOccurrence.HonorsOn (schedule : WeeklyOccurrenceSchedule)
    (result : ResolvedOccurrence) (date : Date) : Prop where
  year : result.localDate.year.toInt = date.year
  month : result.localDate.month.toInt = date.month
  day : result.localDate.day.toInt = date.day
  selected : Selects schedule.isoWeekdayMask (weekday date.dayNumber)
  hour : result.shiftedForGap = false → 0 ≤ schedule.localHour ∧ schedule.localHour ≤ 23
  minute : result.shiftedForGap = false → 0 ≤ schedule.localMinute ∧ schedule.localMinute ≤ 59
  requested : result.shiftedForGap = false →
    result.scheduledUtcSeconds.toInt + result.utcOffsetSeconds.toInt =
      date.dayNumber * 86400 + schedule.localHour.toInt * 3600 + schedule.localMinute.toInt * 60

/-- A resolution that is not `resolved`, or an occurrence after the anchor that is what the
schedule asks for. -/
def FailsClosed (schedule : WeeklyOccurrenceSchedule) (rules : TimezoneRules)
    (afterUtcSeconds : Int64) : Prop :=
  (resolveNextOccurrence schedule rules afterUtcSeconds).status = .resolved →
    afterUtcSeconds < (resolveNextOccurrence schedule rules afterUtcSeconds).scheduledUtcSeconds ∧
      ∃ date, (resolveNextOccurrence schedule rules afterUtcSeconds).HonorsOn schedule date

/-- The checks of the schedule by itself. -/
def validSchedule (schedule : WeeklyOccurrenceSchedule) : Bool :=
  !(schedule.localHour > 23 || schedule.localMinute > 59 || schedule.isoWeekdayMask == 0 ||
    schedule.isoWeekdayMask &&& ~~~allIsoWeekdays != 0)

def secondsInRequestedDay (schedule : WeeklyOccurrenceSchedule) : Int64 :=
  schedule.localHour * 60 * 60 + schedule.localMinute * 60

end App

/-! ### Rules and schedules in range -/

/-- Rules of the app in the words of the device. -/
def deviceRules (rules : App.TimezoneRules) : TimezoneRules where
  name := utf8 rules.name
  version := utf8 rules.version
  initialUtcOffsetSeconds := rules.initialUtcOffsetSeconds.toInt32
  transitions := rules.transitions.map fun transition =>
    { atUtcSeconds := transition.atUtcSeconds
      offsetBeforeSeconds := transition.offsetBeforeSeconds.toInt32
      offsetAfterSeconds := transition.offsetAfterSeconds.toInt32 }

def deviceSchedule (schedule : App.WeeklyOccurrenceSchedule) :
    WeeklyAlarmSchedule where
  localHour := schedule.localHour.toUInt64.toUInt8
  localMinute := schedule.localMinute.toUInt64.toUInt8
  isoWeekdayMask := schedule.isoWeekdayMask.toUInt64.toUInt8
  timezoneName := utf8 schedule.timezoneName
  timezoneRulesVersion := utf8 schedule.timezoneRulesVersion

theorem toInt32_toInt64 {offset : Int64} (bounded : App.validUtcOffset offset = true) :
    offset.toInt32.toInt64 = offset := by
  rw [App.validUtcOffset, Bool.and_eq_true, decide_eq_true_eq, decide_eq_true_eq, ge_iff_le,
    Int64.le_iff_toInt_le, Int64.le_iff_toInt_le] at bounded
  obtain ⟨low, high⟩ := bounded
  change -86400 ≤ offset.toInt at low
  change offset.toInt ≤ 86400 at high
  rw [← Int64.toInt_inj, Int32.toInt_toInt64, Int64.toInt_toInt32, Int.bmod_def]
  omega

theorem validTransitions_offsets {previous : Option Int64} {offset : Int64}
    {transitions : List App.UtcOffsetTransition}
    (valid : App.validTransitions previous offset transitions = true) :
    ∀ transition ∈ transitions, App.validUtcOffset transition.offsetBeforeSeconds = true ∧
      App.validUtcOffset transition.offsetAfterSeconds = true := by
  induction transitions generalizing previous offset with
  | nil => exact fun _ mem => absurd mem List.not_mem_nil
  | cons transition rest ih =>
      rw [App.validTransitions] at valid
      split at valid
      · cases valid
      rename_i passes
      simp only [Bool.or_eq_true, not_or, Bool.not_eq_true', Bool.not_eq_false] at passes
      intro other mem
      rcases List.mem_cons.mp mem with rfl | later
      · exact ⟨passes.1.1.1.1.2, passes.1.1.1.2⟩
      · exact ih valid other later

/-- Accepted rules of the app are a device's. -/
theorem sameRules_deviceRules {rules : App.TimezoneRules}
    (accepted : App.hasValidTransitionChain rules = true) : SameRules (deviceRules rules) rules where
  name := rfl
  version := rfl
  initial := by
    rw [App.hasValidTransitionChain, Bool.and_eq_true] at accepted
    exact (toInt32_toInt64 accepted.1).symm
  transitions := by
    rw [App.hasValidTransitionChain, Bool.and_eq_true] at accepted
    rw [deviceRules, List.map_map]
    refine (List.map_id' rules.transitions).symm.trans (List.map_congr_left ?_)
    intro transition mem
    obtain ⟨before, after⟩ := validTransitions_offsets accepted.2 transition mem
    dsimp only [Function.comp, UtcOffsetTransition.inApp]
    rw [toInt32_toInt64 before, toInt32_toInt64 after]

/-- A mask without bits above the seventh. -/
theorem mask_range {mask : Int64} (within : mask &&& ~~~App.allIsoWeekdays = 0) :
    0 ≤ mask.toInt ∧ mask.toInt < 2 ^ 8 := by
  have kept : mask.toBitVec = mask.toBitVec &&& 127#64 := by
    have none : mask.toBitVec &&& ~~~127#64 = 0#64 := congrArg Int64.toBitVec within
    calc mask.toBitVec = mask.toBitVec &&& (127#64 ||| ~~~127#64) := by
          rw [BitVec.or_not_self, BitVec.and_allOnes]
      _ = mask.toBitVec &&& 127#64 := by
          rw [BitVec.and_or_distrib_left, none, BitVec.or_zero]
  have small : mask.toBitVec.toNat ≤ 127 := by
    rw [kept, BitVec.toNat_and]
    exact Nat.and_le_right
  have value : mask.toInt = mask.toBitVec.toNat :=
    BitVec.toInt_eq_toNat_of_lt (by omega)
  omega

theorem selects_table : ∀ mask : Fin 256, ∀ weekday : Fin 7,
    (UInt8.ofNat mask).toUInt64.toInt64 &&& (1 <<< Int64.ofInt weekday.val) ≠ 0 ↔
      (mask : Nat).testBit weekday = true := by
  decide +kernel

/-- A selected weekday of the device's mask is one of the app's. -/
theorem selects_inApp (mask : UInt8) (day : Int) (selected : Selects mask (weekday day)) :
    App.Selects mask.toUInt64.toInt64 (weekday day) := by
  have range : 0 ≤ weekday day ∧ weekday day < 7 :=
    ⟨Int.emod_nonneg _ (by decide), Int.emod_lt_of_pos _ (by decide)⟩
  have entry := selects_table ⟨mask.toNat, mask.toNat_lt⟩ ⟨(weekday day).toNat, by omega⟩
  rw [UInt8.ofNat_toNat] at entry
  dsimp only at entry
  rw [Int.toNat_of_nonneg range.1] at entry
  exact entry.mpr selected

section Checks

variable {schedule : App.WeeklyOccurrenceSchedule}

structure InRange (schedule : App.WeeklyOccurrenceSchedule) : Prop where
  hour : schedule.localHour ≤ 23
  minute : schedule.localMinute ≤ 59
  mask_ne_zero : schedule.isoWeekdayMask ≠ 0
  mask : schedule.isoWeekdayMask &&& ~~~App.allIsoWeekdays = 0

theorem validSchedule_iff : App.validSchedule schedule = true ↔ InRange schedule := by
  rw [App.validSchedule, Bool.not_eq_true', ← Bool.not_eq_true]
  simp only [Bool.or_eq_true, decide_eq_true_eq, beq_iff_eq, bne_iff_ne, not_or, ne_eq, not_not,
    gt_iff_lt, Int64.not_lt]
  constructor
  · rintro ⟨⟨⟨hour, minute⟩, nonzero⟩, mask⟩
    exact ⟨hour, minute, nonzero, mask⟩
  · rintro ⟨hour, minute, nonzero, mask⟩
    exact ⟨⟨⟨hour, minute⟩, nonzero⟩, mask⟩

/-- A schedule in range, and not negative, is a device's. -/
theorem sameSchedule_deviceSchedule (range : InRange schedule) (hour : 0 ≤ schedule.localHour)
    (minute : 0 ≤ schedule.localMinute) : SameSchedule (deviceSchedule schedule) schedule where
  hour := by
    have upper := Int64.le_iff_toInt_le.mp range.hour
    rw [show (23 : Int64).toInt = 23 from rfl] at upper
    exact toInt64_toUInt8 ⟨Int64.le_iff_toInt_le.mp hour, by omega⟩
  minute := by
    have upper := Int64.le_iff_toInt_le.mp range.minute
    rw [show (59 : Int64).toInt = 59 from rfl] at upper
    exact toInt64_toUInt8 ⟨Int64.le_iff_toInt_le.mp minute, by omega⟩
  mask := toInt64_toUInt8 (mask_range range.mask)
  name := rfl
  version := rfl

end Checks

/-! ### Schedules that are not negative -/

section Nonneg

variable {schedule : App.WeeklyOccurrenceSchedule} {rules : App.TimezoneRules}
  {afterUtcSeconds : Int64}

theorem App.usable_of_resolved
    (resolved : (App.resolveNextOccurrence schedule rules afterUtcSeconds).status = .resolved) :
    App.validSchedule schedule = true ∧ schedule.timezoneName.isEmpty = false ∧
      schedule.timezoneRulesVersion.isEmpty = false ∧
      App.hasValidTransitionChain rules = true := by
  unfold App.resolveNextOccurrence at resolved
  split at resolved
  · cases resolved
  rename_i valid
  split at resolved
  · cases resolved
  rename_i usable
  simp only [Bool.or_eq_true, not_or, Bool.not_eq_true', Bool.not_eq_false,
    Bool.not_eq_true] at usable
  refine ⟨?_, usable.1.1.1.1.1.1, usable.1.1.1.1.1.2, usable.2⟩
  rw [App.validSchedule, Bool.not_eq_true', ← Bool.not_eq_true]
  exact valid

/-- A schedule that is not negative resolves to what it asks for. -/
theorem honors_of_nonneg (hour : 0 ≤ schedule.localHour) (minute : 0 ≤ schedule.localMinute) :
    App.FailsClosed schedule rules afterUtcSeconds := by
  intro resolved
  obtain ⟨valid, -, -, accepted⟩ := App.usable_of_resolved resolved
  have range := validSchedule_iff.mp valid
  have same := sameSchedule_deviceSchedule range hour minute
  have parity := resolve_parity (sameRules_deviceRules accepted) same afterUtcSeconds
  have status : (resolveNextOccurrence (deviceSchedule schedule) (deviceRules rules)
      afterUtcSeconds).status = .resolved := by
    rw [← inApp_eq_resolved, ← parity.status]
    exact resolved
  obtain ⟨date, sound⟩ := resolve_sound status
  refine ⟨?_, date, ?_⟩
  · rw [parity.instant]
    exact sound.later
  · constructor
    · rw [parity.year, Int32.toInt_toInt64]
      exact sound.reads.year
    · rw [parity.month, toInt64_toInt_uint32]
      exact sound.reads.month
    · rw [parity.day, toInt64_toInt_uint32]
      exact sound.reads.day
    · rw [same.mask]
      exact selects_inApp _ _ sound.selected
    · exact fun _ => ⟨hour, range.hour⟩
    · exact fun _ => ⟨minute, range.minute⟩
    · intro unshifted
      rw [parity.shifted] at unshifted
      obtain ⟨-, -, maps⟩ := sound.requested unshifted
      rw [parity.instant, parity.offset, sound.in_force, Int32.toInt_toInt64, same.hour,
        same.minute, toInt64_toInt_uint8, toInt64_toInt_uint8]
      exact maps

end Nonneg

/-! ### Wrapped seconds of the day -/

namespace App

/-- The range guard of the search refuses every selected date that has a civil date. -/
def RefusesEveryDate (schedule : WeeklyOccurrenceSchedule) : Prop :=
  ∀ day dayStart, schedule.isoWeekdayMask &&& (1 <<< weekdayIndexFromDays day) ≠ 0 →
    (civilFromDays day).isSome = true → startOfDaySeconds day = some dayStart →
    dayStart > kInt64Max - secondsInRequestedDay schedule

section Negative

variable {schedule : WeeklyOccurrenceSchedule} {rules : TimezoneRules}
  {afterUtcSeconds day : Int64} {result : ResolvedOccurrence}

/-- What a date has passed that resolves. -/
theorem resolveDate_resolved
    (found : resolveDate schedule rules afterUtcSeconds day = some result)
    (resolved : result.status = .resolved) :
    schedule.isoWeekdayMask &&& (1 <<< weekdayIndexFromDays day) ≠ 0 ∧
      (civilFromDays day).isSome = true ∧
      ∃ dayStart, startOfDaySeconds day = some dayStart ∧
        ¬ dayStart > kInt64Max - secondsInRequestedDay schedule := by
  unfold resolveDate at found
  split at found
  · cases found
  rename_i selected
  dsimp only at found
  split at found
  · cases found
    cases resolved
  rename_i dayStart start
  split at found
  · cases found
    cases resolved
  rename_i guard
  split at found
  · cases found
  split at found
  · cases found
  split at found
  · cases found
  split at found
  · cases found
    cases resolved
  rename_i civil dated
  rw [beq_iff_eq] at selected
  refine ⟨selected, ?_, dayStart, start, guard⟩
  rw [dated]
  rfl

/-- A resolved occurrence is that of a date of the window. -/
theorem resolved_date
    (resolved : (resolveNextOccurrence schedule rules afterUtcSeconds).status = .resolved) :
    ∃ day, resolveDate schedule rules afterUtcSeconds day =
      some (resolveNextOccurrence schedule rules afterUtcSeconds) := by
  unfold resolveNextOccurrence at resolved ⊢
  split at resolved
  · cases resolved
  rename_i valid
  rw [if_neg valid]
  split at resolved
  · cases resolved
  rename_i usable
  rw [if_neg usable]
  split at resolved
  · cases resolved
  rename_i below
  rw [if_neg below]
  dsimp only at resolved ⊢
  split at resolved
  · cases resolved
  rename_i fits
  rw [if_neg fits]
  revert resolved
  generalize search : List.findSome? _ _ = found
  intro resolved
  cases found with
  | none => cases resolved
  | some result =>
      obtain ⟨dayDelta, -, at_date⟩ := List.exists_of_findSome?_eq_some search
      exact ⟨_, at_date⟩

theorem not_resolved_of_refuses (refuses : RefusesEveryDate schedule) :
    (resolveNextOccurrence schedule rules afterUtcSeconds).status ≠ .resolved := by
  intro resolved
  obtain ⟨day, found⟩ := resolved_date resolved
  obtain ⟨selected, civil, dayStart, start, guard⟩ := resolveDate_resolved found resolved
  exact guard (refuses day dayStart selected civil start)

/-- Rules without a transition under the names of the schedule. -/
def utcRules (schedule : WeeklyOccurrenceSchedule) : TimezoneRules where
  name := schedule.timezoneName
  version := schedule.timezoneRulesVersion
  initialUtcOffsetSeconds := 0
  transitions := []

theorem mapLocal_utcRules (localSeconds : Int64) :
    mapLocal (utcRules schedule) localSeconds =
      some { utcSeconds := localSeconds, resolvedLocalSeconds := localSeconds, offsetSeconds := 0,
             shiftedForGap := false, ambiguousFold := false } := by
  have adds : canAdd localSeconds (-0) = true := by
    rw [canAdd, Bool.or_eq_true, Bool.and_eq_true, decide_eq_true_eq, decide_eq_true_eq]
    exact .inl ⟨by decide, Int64.le_maxValue localSeconds⟩
  have tried : tryOffset (utcRules schedule) localSeconds (none, 0) 0 =
      (some { utcSeconds := localSeconds + -0, resolvedLocalSeconds := localSeconds,
              offsetSeconds := 0, shiftedForGap := false, ambiguousFold := false }, 0 + 1) := by
    rw [tryOffset, adds]
    rfl
  have zero : localSeconds + -0 = localSeconds := by
    rw [Int64.neg_zero, Int64.add_zero]
  rw [zero] at tried
  have tries : (distinctOffsets (utcRules schedule)).foldl
      (tryOffset (utcRules schedule) localSeconds) (none, 0) = _ := tried
  have gaps : (utcRules schedule).transitions.findSome? (mapGap localSeconds) = none := rfl
  unfold mapLocal
  rw [gaps, tries]
  rfl

/-- Without transitions a date resolves as soon as it passes the guard and lies after the
anchor. -/
theorem resolveDate_utcRules {dayStart : Int64}
    (selected : schedule.isoWeekdayMask &&& (1 <<< weekdayIndexFromDays day) ≠ 0)
    (civil : (civilFromDays day).isSome = true) (start : startOfDaySeconds day = some dayStart)
    (guard : ¬ dayStart > kInt64Max - secondsInRequestedDay schedule)
    (later : afterUtcSeconds < dayStart + secondsInRequestedDay schedule) :
    ∃ result, resolveDate schedule (utcRules schedule) afterUtcSeconds day = some result ∧
      result.status = .resolved ∧ result.shiftedForGap = false := by
  obtain ⟨date, dated⟩ := Option.isSome_iff_exists.mp civil
  have masked : ¬ (schedule.isoWeekdayMask &&& (1 <<< weekdayIndexFromDays day) == 0) = true := by
    rw [beq_iff_eq]
    exact selected
  have unmoved {other : Bool} : ¬ (false && other) = true := by
    rw [Bool.false_and]
    exact Bool.false_ne_true
  unfold resolveDate
  rw [if_neg masked]
  dsimp only
  rw [start]
  dsimp only
  rw [secondsInRequestedDay] at guard later
  rw [if_neg guard, mapLocal_utcRules, dated]
  exact ⟨_, (if_neg (Int64.not_le.mpr later)).trans (if_neg unmoved), rfl, rfl⟩

/-- Without transitions the search starts on the date of the anchor. -/
theorem resolveNextOccurrence_utcRules (valid : validSchedule schedule = true)
    (named : schedule.timezoneName.isEmpty = false)
    (versioned : schedule.timezoneRulesVersion.isEmpty = false)
    (below : afterUtcSeconds ≠ kInt64Max) :
    resolveNextOccurrence schedule (utcRules schedule) afterUtcSeconds =
      ((List.range 15).findSome? fun dayDelta =>
        resolveDate schedule (utcRules schedule) afterUtcSeconds
          (floorDiv afterUtcSeconds secondsPerDay + Int64.ofNat dayDelta)).getD
        { status := .noOccurrence } := by
  rw [validSchedule, Bool.not_eq_true', ← Bool.not_eq_true] at valid
  have chain : hasValidTransitionChain (utcRules schedule) = true := rfl
  have offset : offsetAtUtc (utcRules schedule) afterUtcSeconds = 0 := rfl
  have usable : ¬ (schedule.timezoneName.isEmpty || schedule.timezoneRulesVersion.isEmpty ||
      (utcRules schedule).name.isEmpty || (utcRules schedule).version.isEmpty ||
      schedule.timezoneName != (utcRules schedule).name ||
      schedule.timezoneRulesVersion != (utcRules schedule).version ||
      !hasValidTransitionChain (utcRules schedule)) = true := by
    rw [chain, utcRules, named, versioned, bne_self_eq_false, bne_self_eq_false]
    decide
  have representable : ¬ ((decide ((0 : Int64) > 0) && decide (afterUtcSeconds > kInt64Max - 0) ||
      decide ((0 : Int64) < 0) && decide (afterUtcSeconds < kInt64Min - 0)) = true) := by
    rw [Bool.or_eq_true, Bool.and_eq_true, Bool.and_eq_true, decide_eq_true_eq, decide_eq_true_eq]
    rintro (⟨positive, -⟩ | ⟨negative, -⟩)
    · exact absurd positive (by decide)
    · exact absurd negative (by decide)
  unfold resolveNextOccurrence
  rw [if_neg valid, if_neg usable, if_neg (by rw [beq_iff_eq]; exact below), offset]
  dsimp only
  rw [if_neg representable, Int64.add_zero]

theorem kInt64Max_toInt : kInt64Max.toInt = 2 ^ 63 - 1 := rfl

/-- The guard keeps the requested time behind the start of the day, if only by a wrap. -/
theorem start_le_of_guard {start seconds : Int64}
    (bounds : -2 ^ 62 ≤ start.toInt ∧ start.toInt ≤ 2 ^ 62)
    (guard : ¬ start > kInt64Max - seconds) (nonzero : seconds ≠ 0) :
    start < start + seconds := by
  have low := seconds.le_toInt
  have high := seconds.toInt_lt
  have apart : seconds.toInt ≠ 0 := fun zero => nonzero (Int64.toInt_inj.mp zero)
  rw [gt_iff_lt, Int64.not_lt, Int64.le_iff_toInt_le, Int64.toInt_sub, kInt64Max_toInt] at guard
  rw [Int64.lt_iff_toInt_lt, Int64.toInt_add]
  by_cases nonneg : 0 ≤ seconds.toInt
  · rw [bmod_of_fits (by omega) (by omega)] at guard
    rw [bmod_of_fits (by omega) (by omega)]
    omega
  · rw [bmod_of_above (by omega) (by omega)] at guard
    rw [bmod_of_below (by omega) (by omega)]
    omega

theorem findSome_window {α : Type} {f : Nat → Option α} {a : α}
    (found : f 0 = some a ∨ f 0 = none ∧ f 1 = some a) :
    (List.range 15).findSome? f = some a := by
  have window : List.range 15 = 0 :: 1 :: [2, 3, 4, 5, 6, 7, 8, 9, 10, 11, 12, 13, 14] := rfl
  rw [window, List.findSome?_cons]
  rcases found with first | ⟨none, second⟩
  · rw [first]
  · rw [none, List.findSome?_cons, second]

/-- A date whose requested time is at or before the anchor is passed over. -/
theorem resolveDate_utcRules_past {dayStart : Int64} (start : startOfDaySeconds day = some dayStart)
    (guard : ¬ dayStart > kInt64Max - secondsInRequestedDay schedule)
    (past : dayStart + secondsInRequestedDay schedule ≤ afterUtcSeconds) :
    resolveDate schedule (utcRules schedule) afterUtcSeconds day = none := by
  unfold resolveDate
  split
  · rfl
  dsimp only
  rw [start]
  dsimp only
  rw [secondsInRequestedDay] at guard past
  rw [if_neg guard, mapLocal_utcRules]
  exact if_pos past

section Resolved

variable {dayStart : Int64} (civil : (civilFromDays day).isSome = true)
  (start : startOfDaySeconds day = some dayStart)

include civil start

/-- A day with a date is near enough for its start to be exact. -/
theorem fits_of_civil : CivilYearFits day.toInt ∧ dayStart.toInt = day.toInt * 86400 := by
  have near : NearDay day := by
    rcases startOfDaySeconds_cases day with none | ⟨near, -⟩
    · rw [startOfDaySeconds_inApp, none] at start
      cases start
    · exact near
  have fits : CivilYearFits day.toInt := by
    rcases civilFromDays_inApp near with ⟨none, -⟩ | ⟨-, -, fits, -⟩
    · rw [none] at civil
      cases civil
    · exact fits
  obtain ⟨-, begins, same, toInt⟩ := startOfDaySeconds_of_fits fits
  rw [startOfDaySeconds_inApp, same] at start
  cases start
  exact ⟨fits, toInt⟩

variable (valid : validSchedule schedule = true) (named : schedule.timezoneName.isEmpty = false)
  (versioned : schedule.timezoneRulesVersion.isEmpty = false)
  (selected : schedule.isoWeekdayMask &&& (1 <<< weekdayIndexFromDays day) ≠ 0)
  (guard : ¬ dayStart > kInt64Max - secondsInRequestedDay schedule)

include valid named versioned selected guard

/-- At midnight the anchor lies one second before the date, on the day before, and that day is
passed over. -/
theorem resolved_at_midnight (zero : secondsInRequestedDay schedule = 0) :
    (resolveNextOccurrence schedule (utcRules schedule) (dayStart - 1)).status = .resolved ∧
      (resolveNextOccurrence schedule (utcRules schedule) (dayStart - 1)).shiftedForGap = false := by
  obtain ⟨fits, start_toInt⟩ := fits_of_civil civil start
  have bounds := fits.bounds
  have before_toInt : (dayStart - 1).toInt = day.toInt * 86400 - 1 := by
    rw [toInt_sub] <;> rw [start_toInt, show (1 : Int64).toInt = 1 from rfl]
    omega
  have previous_toInt : (day - 1).toInt = day.toInt - 1 := by
    rw [toInt_sub] <;> rw [show (1 : Int64).toInt = 1 from rfl]
    omega
  have anchor : floorDiv (dayStart - 1) secondsPerDay = day - 1 := by
    rw [floorDiv_inApp, secondsPerDay_eq, ← Int64.toInt_inj, floorDiv_toInt, before_toInt,
      previous_toInt]
    omega
  obtain ⟨-, previous, begins, begins_toInt⟩ :=
    @startOfDaySeconds_of_bounds (day - 1) (by rw [previous_toInt]; omega)
  rw [previous_toInt] at begins_toInt
  have unguarded {moment : Int64} : ¬ moment > kInt64Max - secondsInRequestedDay schedule := by
    rw [zero, Int64.sub_zero, gt_iff_lt, Int64.not_lt]
    exact Int64.le_maxValue moment
  have past : resolveDate schedule (utcRules schedule) (dayStart - 1) (day - 1) = none := by
    apply @resolveDate_utcRules_past schedule (dayStart - 1) (day - 1) previous
    · rw [startOfDaySeconds_inApp]
      exact begins
    · exact unguarded
    · rw [zero, Int64.add_zero, Int64.le_iff_toInt_le, before_toInt, begins_toInt]
      omega
  obtain ⟨result, found, resolved, unshifted⟩ :=
    @resolveDate_utcRules schedule (dayStart - 1) day dayStart selected civil start guard (by
      rw [zero, Int64.add_zero, Int64.lt_iff_toInt_lt, before_toInt, start_toInt]
      omega)
  rw [resolveNextOccurrence_utcRules valid named versioned, anchor, findSome_window (a := result)]
  · exact ⟨resolved, unshifted⟩
  · right
    constructor
    · rw [show day - 1 + Int64.ofNat 0 = day - 1 from Int64.add_zero _]
      exact past
    · rw [show day - 1 + Int64.ofNat 1 = day from Int64.sub_add_cancel day 1]
      exact found
  · intro same
    rw [← Int64.toInt_inj, before_toInt, kInt64Max_toInt] at same
    omega

/-- Any other time resolves behind the start of its date. -/
theorem resolved_after_midnight (later : ¬ secondsInRequestedDay schedule = 0) :
    (resolveNextOccurrence schedule (utcRules schedule) dayStart).status = .resolved ∧
      (resolveNextOccurrence schedule (utcRules schedule) dayStart).shiftedForGap = false := by
  obtain ⟨fits, start_toInt⟩ := fits_of_civil civil start
  have bounds := fits.bounds
  have anchor : floorDiv dayStart secondsPerDay = day := by
    rw [floorDiv_inApp, secondsPerDay_eq, ← Int64.toInt_inj, floorDiv_toInt, start_toInt]
    omega
  obtain ⟨result, found, resolved, unshifted⟩ :=
    @resolveDate_utcRules schedule dayStart day dayStart selected civil start guard
      (start_le_of_guard (by rw [start_toInt]; omega) guard later)
  rw [resolveNextOccurrence_utcRules valid named versioned, anchor, findSome_window (a := result)]
  · exact ⟨resolved, unshifted⟩
  · left
    rw [show day + Int64.ofNat 0 = day from Int64.add_zero _]
    exact found
  · intro same
    rw [← Int64.toInt_inj, start_toInt, kInt64Max_toInt] at same
    omega

/-- A date that passes the guard resolves under some rules and behind some anchor. -/
theorem exists_resolved :
    ∃ after, (resolveNextOccurrence schedule (utcRules schedule) after).status = .resolved ∧
      (resolveNextOccurrence schedule (utcRules schedule) after).shiftedForGap = false := by
  by_cases midnight : secondsInRequestedDay schedule = 0
  · exact ⟨_, resolved_at_midnight civil start valid named versioned selected guard midnight⟩
  · exact ⟨_, resolved_after_midnight civil start valid named versioned selected guard midnight⟩

end Resolved

/-- A raw schedule fails closed under all rules and behind all anchors if and only if it is
not negative, is refused before the search, or has every date refused in it. -/
theorem fails_closed_iff (schedule : WeeklyOccurrenceSchedule) :
    (∀ rules afterUtcSeconds, FailsClosed schedule rules afterUtcSeconds) ↔
      (0 ≤ schedule.localHour ∧ 0 ≤ schedule.localMinute) ∨ validSchedule schedule = false ∨
        schedule.timezoneName.isEmpty = true ∨ schedule.timezoneRulesVersion.isEmpty = true ∨
        RefusesEveryDate schedule := by
  constructor
  · intro closed
    by_contra open_
    rw [not_or, not_or, not_or, not_or, Bool.not_eq_false, Bool.not_eq_true,
      Bool.not_eq_true] at open_
    obtain ⟨negative, valid, named, versioned, passes⟩ := open_
    have some_date : ∃ day dayStart,
        schedule.isoWeekdayMask &&& (1 <<< weekdayIndexFromDays day) ≠ 0 ∧
        (civilFromDays day).isSome = true ∧ startOfDaySeconds day = some dayStart ∧
        ¬ dayStart > kInt64Max - secondsInRequestedDay schedule := by
      by_contra none
      apply passes
      intro day dayStart selected civil start
      by_contra guard
      exact none ⟨day, dayStart, selected, civil, start, guard⟩
    obtain ⟨day, dayStart, selected, civil, start, guard⟩ := some_date
    obtain ⟨after, resolved, unshifted⟩ :=
      exists_resolved civil start valid named versioned selected guard
    obtain ⟨-, date, honors⟩ := closed (utcRules schedule) after resolved
    exact negative ⟨(honors.hour unshifted).1, (honors.minute unshifted).1⟩
  · intro passes rules after resolved
    obtain ⟨valid, named, versioned, -⟩ := usable_of_resolved resolved
    rcases passes with ⟨hour, minute⟩ | invalid | unnamed | unversioned | refuses
    · exact honors_of_nonneg hour minute resolved
    · rw [valid] at invalid
      cases invalid
    · rw [named] at unnamed
      cases unnamed
    · rw [versioned] at unversioned
      cases unversioned
    · exact absurd resolved (not_resolved_of_refuses refuses)

/-- A schedule whose hour wraps around to 7. -/
def wrappedHour : WeeklyOccurrenceSchedule where
  localHour := 7 - 1152921504606846976
  localMinute := 0
  isoWeekdayMask := 127
  timezoneName := "UTC"
  timezoneRulesVersion := "v1"

/-- The schedule of a negative hour rings at 07:00. -/
theorem wrappedHour_resolves :
    (resolveNextOccurrence wrappedHour (utcRules wrappedHour) 0).status = .resolved ∧
      (resolveNextOccurrence wrappedHour (utcRules wrappedHour) 0).scheduledUtcSeconds = 25200 ∧
      ¬ FailsClosed wrappedHour (utcRules wrappedHour) 0 := by
  have result : resolveNextOccurrence wrappedHour (utcRules wrappedHour) 0 =
      { status := .resolved, scheduledUtcSeconds := 25200,
        localDate := { year := 1970, month := 1, day := 1 }, resolvedLocalHour := 7 } := by
    decide +kernel
  rw [FailsClosed, result]
  refine ⟨rfl, rfl, ?_⟩
  intro closed
  obtain ⟨-, date, honors⟩ := closed rfl
  exact absurd (honors.hour rfl).1 (by decide)

end Negative

end App

end DawnDock
