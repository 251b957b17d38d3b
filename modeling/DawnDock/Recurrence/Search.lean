import DawnDock.Recurrence.Mapping

/-!
The search of `resolve_next_occurrence`: what one date of the window gives
(`resolveDate_cases`) and which dates the window holds (`resolveNextOccurrence_searches`).
-/

namespace DawnDock

open MachineInt LocalTime Calendar

/-- The requested wall time on a date. -/
def WeeklyAlarmSchedule.requested (schedule : WeeklyAlarmSchedule) (day : Int) : Int :=
  day * 86400 + schedule.localHour.toNat * 3600 + schedule.localMinute.toNat * 60

structure WeeklyAlarmSchedule.Valid (schedule : WeeklyAlarmSchedule) : Prop where
  hour : schedule.localHour.toNat ≤ 23
  minute : schedule.localMinute.toNat ≤ 59
  mask_ne_zero : schedule.isoWeekdayMask ≠ 0
  mask_le : schedule.isoWeekdayMask &&& ~~~kAllIsoWeekdays = 0

theorem WeeklyAlarmSchedule.Valid.day_requested {schedule : WeeklyAlarmSchedule}
    (valid : schedule.Valid) (day : Int) : schedule.requested day / 86400 = day := by
  have := valid.hour
  have := valid.minute
  unfold requested
  omega

/-- The result reports the mapping of the requested time on `day`. -/
structure ResolvedOccurrence.Reports (result : ResolvedOccurrence) (day : Int)
    (mapping : LocalMapping) : Prop where
  status : result.status = .resolved
  instant : result.scheduledUtcSeconds = mapping.utcSeconds
  date : result.localDate.Reads (Date.ofDayNumber day)
  hour : (result.resolvedLocalHour.toNat : Int) =
    (mapping.resolvedLocalSeconds.toInt - day * 86400) / 3600
  minute : (result.resolvedLocalMinute.toNat : Int) =
    (mapping.resolvedLocalSeconds.toInt - day * 86400) / 60 % 60
  offset : result.utcOffsetSeconds = mapping.offsetSeconds
  shifted : result.shiftedForGap = mapping.shiftedForGap
  fold : result.ambiguousFold = mapping.ambiguousFold

/-! ### One date -/

theorem secondsInRequestedDay_toInt (hour minute : UInt8) :
    (hour.toUInt64.toInt64 * 60 * 60 + minute.toUInt64.toInt64 * 60).toInt =
      hour.toNat * 3600 + minute.toNat * 60 := by
  have hour_lt := hour.toNat_lt
  have minute_lt := minute.toNat_lt
  have hour_eq := toInt64_toInt_uint8 hour
  have minute_eq := toInt64_toInt_uint8 minute
  have sixty : (60 : Int64).toInt = 60 := rfl
  simp (disch := omega) only [Int64.toInt_add, Int64.toInt_mul, hour_eq, minute_eq, sixty,
    bmod_of_fits]
  omega

theorem startOfDaySeconds_cases (day : Int64) :
    startOfDaySeconds day = none ∨ NearDay day ∧ ∃ start, startOfDaySeconds day = some start ∧
      start.toInt = day.toInt * 86400 := by
  have top : (Int64.maxValue / kSecondsPerDay).toInt = 106751991167300 := by decide
  have bottom : (Int64.minValue / kSecondsPerDay).toInt = -106751991167300 := by decide
  unfold startOfDaySeconds
  split
  · exact .inl rfl
  · rename_i inside
    simp only [Bool.or_eq_true, decide_eq_true_eq, gt_iff_lt, Int64.lt_iff_toInt_lt, top, bottom,
      not_or] at inside
    refine .inr ⟨⟨by omega, by omega⟩, _, rfl, ?_⟩
    rw [toInt_mul] <;> rw [kSecondsPerDay_toInt]
    omega

theorem startOfDaySeconds_of_bounds {day : Int64}
    (bounds : -10 ^ 14 ≤ day.toInt ∧ day.toInt ≤ 10 ^ 14) :
    NearDay day ∧ ∃ start, startOfDaySeconds day = some start ∧
      start.toInt = day.toInt * 86400 := by
  obtain none | found := startOfDaySeconds_cases day
  · have top : (Int64.maxValue / kSecondsPerDay).toInt = 106751991167300 := by decide
    have bottom : (Int64.minValue / kSecondsPerDay).toInt = -106751991167300 := by decide
    unfold startOfDaySeconds at none
    split at none
    · rename_i outside
      simp only [Bool.or_eq_true, decide_eq_true_eq, gt_iff_lt, Int64.lt_iff_toInt_lt, top,
        bottom] at outside
      omega
    · cases none
  · exact found

theorem startOfDaySeconds_of_fits {day : Int64} (fits : CivilYearFits day.toInt) :
    NearDay day ∧ ∃ start, startOfDaySeconds day = some start ∧
      start.toInt = day.toInt * 86400 := by
  have bounds := fits.bounds
  exact startOfDaySeconds_of_bounds (by omega)

/-- A resolved date has a representable year. -/
theorem resolveDate_fits {schedule : WeeklyAlarmSchedule} {rules : TimezoneRules}
    {afterUtcSeconds day : Int64} {result : ResolvedOccurrence}
    (found : resolveDate schedule rules afterUtcSeconds day = some result)
    (resolved : result.status = .resolved) : CivilYearFits day.toInt := by
  have readable : ∃ civil, civilFromDays day = some civil := by
    unfold resolveDate at found
    cases read : civilFromDays day with
    | some civil => exact ⟨civil, rfl⟩
    | none =>
        exfalso
        simp only [read] at found
        repeat' split at found
        all_goals first | cases found; cases resolved | cases found
  have near : NearDay day := by
    obtain none | found' := startOfDaySeconds_cases day
    · unfold resolveDate at found
      simp only [none] at found
      split at found
      · cases found
      · cases found
        cases resolved
    · exact found'.1
  obtain ⟨civil, some⟩ := readable
  obtain ⟨none, -⟩ | ⟨_, -, fits, -⟩ := civilFromDays_cases near
  · rw [none] at some
    cases some
  · exact fits

section Date

variable {schedule : WeeklyAlarmSchedule} {rules : TimezoneRules} {day : Int64}
  (accepted : hasValidTransitionChain rules = true) (afterUtcSeconds : Int64)

/-- A date that is passed over: not selected, at or before the anchor, or moved to
another date. -/
def PassedOver (schedule : WeeklyAlarmSchedule) (zone : Zone) (after day : Int) : Prop :=
  ¬ Selects schedule.isoWeekdayMask (weekday day) ∨
    ∃ mapping : LocalMapping, mapping.Mapped zone (schedule.requested day) ∧
      (mapping.utcSeconds.toInt ≤ after ∨
        mapping.shiftedForGap = true ∧ mapping.resolvedLocalSeconds.toInt / 86400 ≠ day)

/-- A date whose occurrence the search reports. -/
def ReportedFor (schedule : WeeklyAlarmSchedule) (zone : Zone) (after day : Int)
    (result : ResolvedOccurrence) : Prop :=
  Selects schedule.isoWeekdayMask (weekday day) ∧
    ∃ mapping : LocalMapping, mapping.Mapped zone (schedule.requested day) ∧
      after < mapping.utcSeconds.toInt ∧ mapping.resolvedLocalSeconds.toInt / 86400 = day ∧
      result.Reports day mapping

theorem reported_toUInt8 {seconds : Int64} (range : 0 ≤ seconds.toInt ∧ seconds.toInt < 86400) :
    ((seconds / (60 * 60)).toUInt64.toUInt8.toNat : Int) = seconds.toInt / 3600 ∧
      ((seconds / 60 % 60).toUInt64.toUInt8.toNat : Int) = seconds.toInt / 60 % 60 := by
  have hour : (seconds / (60 * 60)).toInt = seconds.toInt / 3600 :=
    toInt_div_of_nonneg range.1 (by decide)
  have minutes : (seconds / 60).toInt = seconds.toInt / 60 :=
    toInt_div_of_nonneg range.1 (by decide)
  have minute : (seconds / 60 % 60).toInt = seconds.toInt / 60 % 60 := by
    rw [toInt_mod_of_nonneg (by omega), minutes]
    rfl
  rw [← hour, ← minute]
  exact ⟨toUInt8_toNat (by omega), toUInt8_toNat (by omega)⟩

/-- A mapping the search keeps resolves on the requested date. -/
theorem LocalMapping.Mapped.same_day {zone : Zone} {date : Int} {mapping : LocalMapping}
    (mapped : mapping.Mapped zone (schedule.requested date)) (valid : schedule.Valid)
    (kept : ¬ (mapping.shiftedForGap = true ∧
      mapping.resolvedLocalSeconds.toInt / 86400 ≠ date)) :
    mapping.resolvedLocalSeconds.toInt / 86400 = date := by
  cases mapped with
  | moved mem skips shifted =>
      by_contra other
      exact kept ⟨shifted, other⟩
  | shown _ unshifted first resolved => rw [resolved, valid.day_requested]

/-- The requested time of a representable date, as the machine adds it up. -/
theorem localSeconds_toInt {start requested : Int64} (valid : schedule.Valid)
    (fits : CivilYearFits day.toInt) (start_toInt : start.toInt = day.toInt * 86400)
    (requested_toInt : requested.toInt =
      schedule.localHour.toNat * 3600 + schedule.localMinute.toNat * 60) :
    (start + requested).toInt = schedule.requested day.toInt ∧ NearWall (start + requested) := by
  have bounds := fits.bounds
  have hour := valid.hour
  have minute := valid.minute
  have local_eq : (start + requested).toInt = schedule.requested day.toInt := by
    rw [toInt_add (by omega), WeeklyAlarmSchedule.requested]
    omega
  refine ⟨local_eq, ?_⟩
  rw [NearWall, local_eq, WeeklyAlarmSchedule.requested]
  omega

theorem secondsInDay_mem {seconds date : Int} (same_day : seconds / 86400 = date) :
    0 ≤ seconds - date * 86400 ∧ seconds - date * 86400 < 86400 := by
  omega

theorem secondsInDay_toInt {resolved : Int64} (fits : CivilYearFits day.toInt)
    (same_day : resolved.toInt / 86400 = day.toInt) :
    (resolved - day * kSecondsPerDay).toInt = resolved.toInt - day.toInt * 86400 := by
  have bounds := fits.bounds
  have product : (day * kSecondsPerDay).toInt = day.toInt * 86400 :=
    toInt_mul (by rw [kSecondsPerDay_toInt]; omega)
  rw [toInt_sub] <;> rw [product]
  omega

theorem resolveDate_cases (valid : schedule.Valid) (fits : CivilYearFits day.toInt) :
    (resolveDate schedule rules afterUtcSeconds day = none ∧
        PassedOver schedule (rules.zone accepted) afterUtcSeconds.toInt day.toInt) ∨
      ∃ result, resolveDate schedule rules afterUtcSeconds day = some result ∧
        ReportedFor schedule (rules.zone accepted) afterUtcSeconds.toInt day.toInt result := by
  have bounds := fits.bounds
  have hour := valid.hour
  have minute := valid.minute
  obtain ⟨near, start, start_eq, start_toInt⟩ := startOfDaySeconds_of_fits fits
  obtain ⟨-, unfit⟩ | ⟨civil, civil_eq, -, reads⟩ := civilFromDays_cases near
  · exact absurd fits unfit
  unfold resolveDate
  by_cases selected : Selects schedule.isoWeekdayMask (weekday day.toInt)
  swap
  · rw [if_pos (beq_iff_eq.mpr ((masked_iff near).mpr selected))]
    exact .inl ⟨rfl, .inl selected⟩
  rw [if_neg fun masked => (masked_iff near).mp (beq_iff_eq.mp masked) selected]
  simp only [start_eq, civil_eq]
  have requested_toInt := secondsInRequestedDay_toInt schedule.localHour schedule.localMinute
  generalize schedule.localHour.toUInt64.toInt64 * 60 * 60 +
    schedule.localMinute.toUInt64.toInt64 * 60 = requested at *
  obtain ⟨local_eq, near_wall⟩ := localSeconds_toInt valid fits start_toInt requested_toInt
  have room : ¬ start > Int64.maxValue - requested := by
    have top : (Int64.maxValue - requested).toInt = 2 ^ 63 - 1 - requested.toInt := by
      rw [toInt_sub] <;> rw [Int64.toInt_maxValue]
      omega
    rw [gt_iff_lt, Int64.lt_iff_toInt_lt, top]
    omega
  obtain ⟨mapping, mapping_eq, mapped⟩ := mapLocal_mapped accepted near_wall
  rw [local_eq] at mapped
  rw [if_neg room]
  simp only [mapping_eq]
  by_cases past : mapping.utcSeconds ≤ afterUtcSeconds
  · rw [if_pos past]
    exact .inl ⟨rfl, .inr ⟨mapping, mapped, .inl (Int64.le_iff_toInt_le.mp past)⟩⟩
  rw [if_neg past]
  have later : afterUtcSeconds.toInt < mapping.utcSeconds.toInt := by
    rw [Int64.le_iff_toInt_le] at past
    omega
  have day_iff : floorDiv mapping.resolvedLocalSeconds kSecondsPerDay = day ↔
      mapping.resolvedLocalSeconds.toInt / 86400 = day.toInt := by
    rw [← Int64.toInt_inj, floorDiv_toInt]
  by_cases moved : mapping.shiftedForGap = true ∧
      mapping.resolvedLocalSeconds.toInt / 86400 ≠ day.toInt
  · rw [if_pos]
    · exact .inl ⟨rfl, .inr ⟨mapping, mapped, .inr moved⟩⟩
    · rw [Bool.and_eq_true, bne_iff_ne, ne_eq, day_iff]
      exact moved
  have same_day := mapped.same_day valid moved
  rw [if_neg]
  swap
  · rw [Bool.and_eq_true, bne_iff_ne, ne_eq, day_iff]
    exact moved
  have seconds_toInt := secondsInDay_toInt fits same_day
  obtain ⟨hour_eq, minute_eq⟩ :=
    @reported_toUInt8 (mapping.resolvedLocalSeconds - day * kSecondsPerDay)
      (seconds_toInt ▸ secondsInDay_mem same_day)
  rw [day_iff.mpr same_day]
  rw [seconds_toInt] at hour_eq minute_eq
  exact .inr ⟨_, rfl, selected, mapping, mapped, later, same_day,
    ⟨rfl, rfl, reads, hour_eq, minute_eq, rfl, rfl, rfl⟩⟩

end Date

/-! ### The window -/

section Window

variable {schedule : WeeklyAlarmSchedule} {rules : TimezoneRules} {afterUtcSeconds : Int64}

/-- What `resolve_next_occurrence` checks before it searches. -/
structure Searches (schedule : WeeklyAlarmSchedule) (rules : TimezoneRules)
    (afterUtcSeconds : Int64) : Prop where
  valid : schedule.Valid
  name_ne_nil : rules.name ≠ []
  version_ne_nil : rules.version ≠ []
  same_name : schedule.timezoneName = rules.name
  same_version : schedule.timezoneRulesVersion = rules.version
  accepted : hasValidTransitionChain rules = true
  below_max : afterUtcSeconds ≠ Int64.maxValue
  anchor_fits : -2 ^ 63 ≤ (rules.zone accepted).wall afterUtcSeconds.toInt ∧
    (rules.zone accepted).wall afterUtcSeconds.toInt < 2 ^ 63

/-- The local date of the anchor. -/
def anchorDay (zone : Zone) (after : Int) : Int := zone.wall after / 86400

/-- The dates the loop runs over. -/
def windowDay (rules : TimezoneRules) (afterUtcSeconds : Int64) (dayDelta : Nat) : Int64 :=
  floorDiv (afterUtcSeconds + (offsetAtUtc rules afterUtcSeconds).toInt64) kSecondsPerDay +
    Int64.ofNat dayDelta

theorem windowDay_toInt (searches : Searches schedule rules afterUtcSeconds) {dayDelta : Nat}
    (lt : dayDelta < 15) : (windowDay rules afterUtcSeconds dayDelta).toInt =
      anchorDay (rules.zone searches.accepted) afterUtcSeconds.toInt + dayDelta := by
  have fits := searches.anchor_fits
  have offset : (offsetAtUtc rules afterUtcSeconds).toInt64.toInt =
      (rules.zone searches.accepted).offset afterUtcSeconds.toInt := by
    rw [Int32.toInt_toInt64, offsetAtUtc_toInt searches.accepted]
  have anchor : (afterUtcSeconds + (offsetAtUtc rules afterUtcSeconds).toInt64).toInt =
      (rules.zone searches.accepted).wall afterUtcSeconds.toInt := by
    rw [toInt_add] <;> rw [offset]
    · rfl
    · exact fits
  have delta : (Int64.ofNat dayDelta).toInt = dayDelta := Int64.toInt_ofNat_of_lt (by omega)
  rw [windowDay, toInt_add] <;> rw [floorDiv_toInt, anchor, delta]
  · rfl
  · omega

theorem anchor_fits_iff (accepted : hasValidTransitionChain rules = true) :
    ¬ ((decide ((offsetAtUtc rules afterUtcSeconds).toInt64 > 0) &&
            decide (afterUtcSeconds >
              Int64.maxValue - (offsetAtUtc rules afterUtcSeconds).toInt64) ||
          decide ((offsetAtUtc rules afterUtcSeconds).toInt64 < 0) &&
            decide (afterUtcSeconds <
              Int64.minValue - (offsetAtUtc rules afterUtcSeconds).toInt64)) = true) ↔
      -2 ^ 63 ≤ (rules.zone accepted).wall afterUtcSeconds.toInt ∧
        (rules.zone accepted).wall afterUtcSeconds.toInt < 2 ^ 63 := by
  have low := afterUtcSeconds.le_toInt
  have high := afterUtcSeconds.toInt_lt
  have offset : (offsetAtUtc rules afterUtcSeconds).toInt64.toInt =
      (rules.zone accepted).offset afterUtcSeconds.toInt := by
    rw [Int32.toInt_toInt64, offsetAtUtc_toInt accepted]
  have bounds := (zone_within accepted).offset_mem afterUtcSeconds.toInt
  generalize (offsetAtUtc rules afterUtcSeconds).toInt64 = anchorOffset at *
  simp only [Bool.or_eq_true, Bool.and_eq_true, decide_eq_true_eq, gt_iff_lt,
    Int64.lt_iff_toInt_lt, Int64.toInt_zero, Zone.wall, ← offset] at *
  by_cases positive : 0 < anchorOffset.toInt
  · have top : (Int64.maxValue - anchorOffset).toInt = 2 ^ 63 - 1 - anchorOffset.toInt := by
      rw [toInt_sub] <;> rw [Int64.toInt_maxValue]
      omega
    rw [top]
    omega
  · have bottom : (Int64.minValue - anchorOffset).toInt = -2 ^ 63 - anchorOffset.toInt := by
      rw [toInt_sub] <;> rw [Int64.toInt_minValue]
      omega
    rw [bottom]
    omega

theorem valid_iff : ¬ (decide (schedule.localHour > 23) || decide (schedule.localMinute > 59) ||
        schedule.isoWeekdayMask == 0 ||
        schedule.isoWeekdayMask &&& ~~~kAllIsoWeekdays != 0) = true ↔ schedule.Valid := by
  simp only [Bool.or_eq_true, decide_eq_true_eq, gt_iff_lt, UInt8.lt_iff_toNat_lt, beq_iff_eq,
    bne_iff_ne, ne_eq, not_or, not_not, Nat.not_lt]
  constructor
  · rintro ⟨⟨⟨hour, minute⟩, mask_ne_zero⟩, mask_le⟩
    exact ⟨hour, minute, mask_ne_zero, mask_le⟩
  · rintro ⟨hour, minute, mask_ne_zero, mask_le⟩
    exact ⟨⟨⟨hour, minute⟩, mask_ne_zero⟩, mask_le⟩

theorem usable_iff : ¬ (schedule.timezoneName.isEmpty || schedule.timezoneRulesVersion.isEmpty ||
        rules.name.isEmpty || rules.version.isEmpty || schedule.timezoneName != rules.name ||
        schedule.timezoneRulesVersion != rules.version ||
        !hasValidTransitionChain rules) = true ↔
      rules.name ≠ [] ∧ rules.version ≠ [] ∧ schedule.timezoneName = rules.name ∧
        schedule.timezoneRulesVersion = rules.version ∧ hasValidTransitionChain rules = true := by
  simp only [Bool.or_eq_true, List.isEmpty_iff, bne_iff_ne, ne_eq, Bool.not_eq_true', not_or,
    not_not, Bool.not_eq_false]
  constructor
  · rintro ⟨⟨⟨⟨⟨_, name⟩, version⟩, same_name⟩, same_version⟩, accepted⟩
    exact ⟨name, version, same_name, same_version, accepted⟩
  · rintro ⟨name, version, same_name, same_version, accepted⟩
    rw [same_name, same_version]
    exact ⟨⟨⟨⟨⟨⟨name, version⟩, name⟩, version⟩, rfl⟩, rfl⟩, accepted⟩

/-- The search runs exactly on usable inputs. -/
theorem resolveNextOccurrence_cases :
    (¬ Searches schedule rules afterUtcSeconds ∧
        (resolveNextOccurrence schedule rules afterUtcSeconds).status ≠ .resolved) ∨
      Searches schedule rules afterUtcSeconds ∧
        resolveNextOccurrence schedule rules afterUtcSeconds =
          ((List.range 15).findSome? fun dayDelta => resolveDate schedule rules afterUtcSeconds
            (windowDay rules afterUtcSeconds dayDelta)).getD { status := .noOccurrence } := by
  unfold resolveNextOccurrence
  split
  · rename_i invalid
    exact .inl ⟨fun searches => valid_iff.mpr searches.valid invalid, by simp⟩
  rename_i valid
  split
  · rename_i unusable
    exact .inl ⟨fun searches => usable_iff.mpr ⟨searches.name_ne_nil, searches.version_ne_nil,
      searches.same_name, searches.same_version, searches.accepted⟩ unusable, by simp⟩
  rename_i usable
  obtain ⟨name, version, same_name, same_version, accepted⟩ := usable_iff.mp usable
  split
  · rename_i last
    exact .inl ⟨fun searches => searches.below_max (beq_iff_eq.mp last), by simp⟩
  rename_i below_max
  by_cases fits : -2 ^ 63 ≤ (rules.zone accepted).wall afterUtcSeconds.toInt ∧
      (rules.zone accepted).wall afterUtcSeconds.toInt < 2 ^ 63
  · rw [if_neg ((anchor_fits_iff accepted).mpr fits)]
    exact .inr ⟨⟨valid_iff.mp valid, name, version, same_name, same_version, accepted,
      fun last => below_max (beq_iff_eq.mpr last), fits⟩, rfl⟩
  · rw [if_pos (not_not.mp fun guard => fits ((anchor_fits_iff accepted).mp guard))]
    exact .inl ⟨fun searches => fits searches.anchor_fits, by simp⟩

/-- A resolved occurrence is the first one reported in the window. -/
theorem resolveNextOccurrence_resolved
    (resolved : (resolveNextOccurrence schedule rules afterUtcSeconds).status = .resolved) :
    ∃ searches : Searches schedule rules afterUtcSeconds, ∃ day, CivilYearFits day ∧
      ReportedFor schedule (rules.zone searches.accepted) afterUtcSeconds.toInt day
        (resolveNextOccurrence schedule rules afterUtcSeconds) := by
  obtain ⟨-, unresolved⟩ | ⟨searches, eq⟩ := @resolveNextOccurrence_cases schedule rules afterUtcSeconds
  · exact absurd resolved unresolved
  refine ⟨searches, ?_⟩
  rw [eq] at resolved ⊢
  cases found : (List.range 15).findSome? fun dayDelta => resolveDate schedule rules
      afterUtcSeconds (windowDay rules afterUtcSeconds dayDelta) with
  | none =>
      rw [found] at resolved
      cases resolved
  | some result =>
      rw [found, Option.getD_some] at resolved
      obtain ⟨dayDelta, -, at_date⟩ := List.exists_of_findSome?_eq_some found
      have fits := resolveDate_fits at_date resolved
      obtain ⟨none, -⟩ | ⟨_, some, reported⟩ :=
        resolveDate_cases searches.accepted afterUtcSeconds searches.valid fits
      · rw [none] at at_date
        cases at_date
      · obtain rfl := Option.some.inj (some.symm.trans at_date)
        exact ⟨_, fits, reported⟩

end Window

end DawnDock
