import DawnDock.Recurrence.Search

/-!
A resolved occurrence is right about itself (`resolve_sound`): it lies after the anchor
on a selected date, and reports either the first instant of the requested time or the
shift that skips it. Reported times have no seconds, so the end of a gap is reported to
the minute (`gap_end_to_the_minute`).
-/

namespace DawnDock

open MachineInt LocalTime Calendar

/-- The instant maps to the wall time. -/
def MapsTo (rules : TimezoneRules) (utcSeconds : Int64) (localSeconds : Int) : Prop :=
  utcSeconds.toInt + (offsetAtUtc rules utcSeconds).toInt = localSeconds

/-- What a resolved occurrence on `date` asserts. -/
structure ResolvedOccurrence.Sound (schedule : WeeklyAlarmSchedule) (rules : TimezoneRules)
    (afterUtcSeconds : Int64) (result : ResolvedOccurrence) (date : Date) : Prop where
  later : afterUtcSeconds < result.scheduledUtcSeconds
  in_force : result.utcOffsetSeconds = offsetAtUtc rules result.scheduledUtcSeconds
  reads : result.localDate.Reads date
  selected : Selects schedule.isoWeekdayMask (weekday date.dayNumber)
  requested : result.shiftedForGap = false →
    result.resolvedLocalHour = schedule.localHour ∧
      result.resolvedLocalMinute = schedule.localMinute ∧
      MapsTo rules result.scheduledUtcSeconds (schedule.requested date.dayNumber)
  earliest : result.shiftedForGap = false → ∀ earlier < result.scheduledUtcSeconds,
    ¬ MapsTo rules earlier (schedule.requested date.dayNumber)
  fold : result.shiftedForGap = false → (result.ambiguousFold = true ↔
    ∃ first second, first ≠ second ∧ MapsTo rules first (schedule.requested date.dayNumber) ∧
      MapsTo rules second (schedule.requested date.dayNumber))
  skipped : result.shiftedForGap = true → ∃ transition ∈ rules.transitions,
    transition.offsetBeforeSeconds < transition.offsetAfterSeconds ∧
      transition.atUtcSeconds = result.scheduledUtcSeconds ∧
      transition.shift.Skips (schedule.requested date.dayNumber) ∧
      result.resolvedLocalHour.toNat ≤ 23 ∧ result.resolvedLocalMinute.toNat ≤ 59 ∧
      ∃ seconds, 0 ≤ seconds ∧ seconds < 60 ∧
        transition.shift.resumes = date.dayNumber * 86400 +
          result.resolvedLocalHour.toNat * 3600 + result.resolvedLocalMinute.toNat * 60 + seconds

section Sound

variable {schedule : WeeklyAlarmSchedule} {rules : TimezoneRules} {afterUtcSeconds : Int64}
  {day : Int} {result : ResolvedOccurrence}

theorem mapsTo_iff (accepted : hasValidTransitionChain rules = true) {utcSeconds : Int64}
    {localSeconds : Int} : MapsTo rules utcSeconds localSeconds ↔
      (rules.zone accepted).wall utcSeconds.toInt = localSeconds := by
  rw [MapsTo, offsetAtUtc_toInt accepted, Zone.wall]

/-- Instants that show the wall time of a representable date are representable. -/
theorem exists_int64_of_wall (accepted : hasValidTransitionChain rules = true) {instant : Int}
    (near : -2 ^ 62 ≤ (rules.zone accepted).wall instant ∧
      (rules.zone accepted).wall instant ≤ 2 ^ 62) :
    ∃ utcSeconds : Int64, utcSeconds.toInt = instant := by
  have bounds := (zone_within accepted).wall_mem instant
  exact ⟨Int64.ofInt instant, Int64.toInt_ofInt_of_le (by omega) (by omega)⟩

theorem ReportedFor.sound (accepted : hasValidTransitionChain rules = true) (valid : schedule.Valid)
    (fits : CivilYearFits day)
    (reported : ReportedFor schedule (rules.zone accepted) afterUtcSeconds.toInt day result) :
    result.Sound schedule rules afterUtcSeconds (Date.ofDayNumber day) := by
  obtain ⟨selected, mapping, mapped, later, same_day, reports⟩ := reported
  have bounds := fits.bounds
  have hour := valid.hour
  have minute := valid.minute
  have hour_eq := reports.hour
  have minute_eq := reports.minute
  have near : -2 ^ 62 ≤ schedule.requested day ∧ schedule.requested day ≤ 2 ^ 62 := by
    unfold WeeklyAlarmSchedule.requested
    omega
  have in_force : result.utcOffsetSeconds = offsetAtUtc rules result.scheduledUtcSeconds := by
    rw [← Int32.toInt_inj, offsetAtUtc_toInt accepted, reports.offset, reports.instant]
    cases mapped with
    | moved mem _ _ _ instant _ offset => rw [offset, instant, Zone.offset_shift mem]
    | shown _ _ _ _ offset _ => exact offset
  refine ⟨?_, in_force, reports.date, ?_, ?_, ?_, ?_, ?_⟩ <;> try rw [dayNumber_ofDayNumber]
  · rw [reports.instant, Int64.lt_iff_toInt_lt]
    exact later
  · exact selected
  all_goals rw [reports.shifted]
  · intro unshifted
    cases mapped with
    | moved _ _ shifted => simp [shifted] at unshifted
    | shown kept _ first resolved _ fold =>
        rw [resolved, WeeklyAlarmSchedule.requested] at hour_eq minute_eq
        rw [← UInt8.toNat_inj, ← UInt8.toNat_inj, mapsTo_iff accepted, reports.instant]
        exact ⟨by omega, by omega, first.1⟩
  · intro unshifted earlier lt maps
    cases mapped with
    | moved _ _ shifted => simp [shifted] at unshifted
    | shown kept _ first resolved _ fold =>
        have le := first.2 ((mapsTo_iff accepted).mp maps)
        rw [reports.instant, Int64.lt_iff_toInt_lt] at lt
        omega
  · intro unshifted
    cases mapped with
    | moved _ _ shifted => simp [shifted] at unshifted
    | shown kept _ first resolved _ fold =>
        rw [reports.fold, fold]
        constructor
        · rintro ⟨other, ne, shows⟩
          obtain ⟨second, rfl⟩ := exists_int64_of_wall accepted (shows ▸ near)
          refine ⟨second, mapping.utcSeconds, fun same => ne (congrArg Int64.toInt same), ?_, ?_⟩
          · exact (mapsTo_iff accepted).mpr shows
          · exact (mapsTo_iff accepted).mpr first.1
        · rintro ⟨one, two, ne, maps, maps'⟩
          by_cases same : one = mapping.utcSeconds
          · exact ⟨two.toInt, fun eq => ne (same.trans (Int64.toInt_inj.mp eq).symm),
              (mapsTo_iff accepted).mp maps'⟩
          · exact ⟨one.toInt, fun eq => same (Int64.toInt_inj.mp eq),
              (mapsTo_iff accepted).mp maps⟩
  · intro shifted
    cases mapped with
    | shown kept unshifted => simp [unshifted] at shifted
    | moved mem skips _ _ instant resumes offset =>
        obtain ⟨transition, transition_mem, rfl⟩ := List.mem_map.mp mem
        refine ⟨transition, transition_mem, ?_, ?_, skips, by omega, by omega,
          (mapping.resolvedLocalSeconds.toInt - day * 86400) % 60, by omega, by omega, ?_⟩
        · rw [Int32.lt_iff_toInt_lt]
          have := skips.1
          have := skips.2
          simp only [UtcOffsetTransition.shift] at *
          omega
        · rw [reports.instant, ← Int64.toInt_inj, instant]
          rfl
        · rw [← resumes]
          omega

/-- A resolved occurrence is sound. -/
theorem resolve_sound
    (resolved : (resolveNextOccurrence schedule rules afterUtcSeconds).status = .resolved) :
    ∃ date, (resolveNextOccurrence schedule rules afterUtcSeconds).Sound schedule rules
      afterUtcSeconds date := by
  obtain ⟨searches, day, fits, reported⟩ := resolveNextOccurrence_resolved resolved
  exact ⟨Date.ofDayNumber day, reported.sound searches.accepted searches.valid fits⟩

end Sound

theorem resolve_sound_spring_gap :
    ∃ date, (resolveNextOccurrence newYorkAlarm newYorkRules 1772928000).Sound newYorkAlarm
      newYorkRules 1772928000 date :=
  resolve_sound (by decide +kernel)

/-- A gap that ends at 01:00:30 is reported as 01:00, which it still skips. -/
theorem gap_end_to_the_minute :
    ¬ ∀ (schedule : WeeklyAlarmSchedule) (rules : TimezoneRules) (afterUtcSeconds : Int64),
      (resolveNextOccurrence schedule rules afterUtcSeconds).status = .resolved →
      (resolveNextOccurrence schedule rules afterUtcSeconds).shiftedForGap = true →
      ∃ date : Date,
        (resolveNextOccurrence schedule rules afterUtcSeconds).localDate.Reads date ∧
        ∃ transition ∈ rules.transitions, transition.shift.resumes = date.dayNumber * 86400 +
          (resolveNextOccurrence schedule rules afterUtcSeconds).resolvedLocalHour.toNat * 3600 +
          (resolveNextOccurrence schedule rules afterUtcSeconds).resolvedLocalMinute.toNat * 60 := by
  intro exact
  have result : resolveNextOccurrence
      { localHour := 0, localMinute := 30, isoWeekdayMask := 127, timezoneName := [0x5a],
        timezoneRulesVersion := [0x61] }
      { name := [0x5a], version := [0x61], initialUtcOffsetSeconds := 0,
        transitions := [{ atUtcSeconds := 0, offsetBeforeSeconds := 0,
                          offsetAfterSeconds := 3630 }] } (-1) =
      { status := .resolved, scheduledUtcSeconds := 0,
        localDate := { year := 1970, month := 1, day := 1 }, resolvedLocalHour := 1,
        resolvedLocalMinute := 0, utcOffsetSeconds := 3630, shiftedForGap := true } := by
    decide +kernel
  obtain ⟨date, reads, transition, mem, resumes⟩ := exact
    { localHour := 0, localMinute := 30, isoWeekdayMask := 127, timezoneName := [0x5a],
      timezoneRulesVersion := [0x61] }
    { name := [0x5a], version := [0x61], initialUtcOffsetSeconds := 0,
      transitions := [{ atUtcSeconds := 0, offsetBeforeSeconds := 0,
                        offsetAfterSeconds := 3630 }] } (-1)
    (by rw [result]) (by rw [result])
  rw [result] at reads resumes
  obtain rfl := List.mem_singleton.mp mem
  have number : date.dayNumber = 0 := by
    rw [Date.dayNumber, ← reads.year, ← reads.month, ← reads.day]
    decide +kernel
  rw [number] at resumes
  exact absurd resumes (by decide)

end DawnDock
