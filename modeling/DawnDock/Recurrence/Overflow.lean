import DawnDock.Recurrence.Search
import DawnDock.Library.Trapping

/-!
Overflow in the resolver. `Trapped` is `resolve_next_occurrence` once more, with its
helpers, in arithmetic that stops at the first signed operation whose result does not
fit: every sum, difference, product, quotient and negation of the source, in its order
and behind its guards.

Nothing stops (`resolver_never_overflows`): the guards keep every operation in its type,
whatever the rules and the anchor. An input on which the same sums without their guards
would leave the type is never answered `resolved`.
-/

namespace DawnDock

open MachineInt LocalTime Calendar
open Trapping (FitsInt32)

namespace Trapped

def validUtcOffset (offset : Int32) : Option Bool := do
  let lowest ← Trapping.neg kSecondsPerDay
  pure (offset.toInt64 ≥ lowest && offset.toInt64 ≤ kSecondsPerDay)

def canAdd (value : Int64) (offset : Int32) : Option Bool :=
  Trapping.orElse
    (Trapping.andAlso (pure (offset ≥ 0)) do
      let most ← Trapping.sub Int64.maxValue offset.toInt64
      pure (value ≤ most))
    (Trapping.andAlso (pure (offset < 0)) do
      let least ← Trapping.sub Int64.minValue offset.toInt64
      pure (value ≥ least))

/-- The arithmetic of an era is unsigned and cannot overflow. -/
def civilFromDays (days : Int64) : Option (Option CivilDate) := do
  let days ← Trapping.add days 719468
  let start ← (if days ≥ 0 then pure days else Trapping.sub days 146096)
  let era ← Trapping.div start 146097
  let eraStart ← Trapping.mul era 146097
  let sinceEraStart ← Trapping.sub days eraStart
  let dayOfEra := sinceEraStart.toUInt64.toUInt32
  let yearOfEra := (dayOfEra - dayOfEra / 1460 + dayOfEra / 36524 - dayOfEra / 146096) / 365
  let eraYear ← Trapping.mul era 400
  let year ← Trapping.add yearOfEra.toUInt64.toInt64 eraYear
  let dayOfYear := dayOfEra - (365 * yearOfEra + yearOfEra / 4 - yearOfEra / 100)
  let monthPrime := (5 * dayOfYear + 2) / 153
  let day := dayOfYear - (153 * monthPrime + 2) / 5 + 1
  let month := if monthPrime < 10 then monthPrime + 3 else monthPrime - 9
  let year ← Trapping.add year (if month ≤ 2 then 1 else 0)
  if year < Int32.minValue.toInt64 || year > Int32.maxValue.toInt64 then pure none
  else pure (some { year := year.toInt32, month := month, day := day })

def floorDiv (numerator denominator : Int64) : Option Int64 := do
  let quotient ← Trapping.div numerator denominator
  let remainder ← Trapping.mod numerator denominator
  if remainder < 0 then Trapping.sub quotient 1 else pure quotient

def weekdayFromDays (days : Int64) : Option IsoWeekday := do
  let shifted ← Trapping.add days 3
  let index ← Trapping.mod shifted 7
  let index ← (if index < 0 then Trapping.add index 7 else pure index)
  pure (isoWeekdayOfIndex index)

def startOfDaySeconds (day : Int64) : Option (Option Int64) := do
  let last ← Trapping.div Int64.maxValue kSecondsPerDay
  let first ← Trapping.div Int64.minValue kSecondsPerDay
  if day > last || day < first then pure none
  else do
    let start ← Trapping.mul day kSecondsPerDay
    pure (some start)

/-- The loop of `has_valid_transition_chain`. -/
def validTransitions (previousTransition : Option Int64) (activeOffset : Int32) :
    List UtcOffsetTransition → Option Bool
  | [] => pure true
  | transition :: rest => do
    let refused ←
      Trapping.orElse (Trapping.orElse (Trapping.orElse (Trapping.orElse (Trapping.orElse
        (Trapping.orElse
          (pure (previousTransition.any (transition.atUtcSeconds ≤ ·)))
          (pure (transition.offsetBeforeSeconds != activeOffset)))
          (not <$> validUtcOffset transition.offsetBeforeSeconds))
          (not <$> validUtcOffset transition.offsetAfterSeconds))
          (not <$> canAdd transition.atUtcSeconds transition.offsetBeforeSeconds))
          (not <$> canAdd transition.atUtcSeconds transition.offsetAfterSeconds))
          (pure (transition.offsetBeforeSeconds == transition.offsetAfterSeconds))
    if refused then pure false
    else validTransitions (some transition.atUtcSeconds) transition.offsetAfterSeconds rest

def hasValidTransitionChain (rules : TimezoneRules) : Option Bool :=
  Trapping.andAlso (validUtcOffset rules.initialUtcOffsetSeconds)
    (validTransitions none rules.initialUtcOffsetSeconds rules.transitions)

def mapGap (localSeconds : Int64) (transition : UtcOffsetTransition) :
    Option (Option LocalMapping) :=
  if transition.offsetAfterSeconds ≤ transition.offsetBeforeSeconds then pure none
  else do
    let gapStart ← Trapping.add transition.atUtcSeconds transition.offsetBeforeSeconds.toInt64
    let gapEnd ← Trapping.add transition.atUtcSeconds transition.offsetAfterSeconds.toInt64
    if localSeconds ≥ gapStart && localSeconds < gapEnd then
      pure (some { utcSeconds := transition.atUtcSeconds, resolvedLocalSeconds := gapEnd,
                   offsetSeconds := transition.offsetAfterSeconds, shiftedForGap := true,
                   ambiguousFold := false })
    else pure none

def tryOffset (rules : TimezoneRules) (localSeconds : Int64)
    (found : Option LocalMapping × Nat) (offset : Int32) : Option (Option LocalMapping × Nat) := do
  let inverseOffset ← Trapping.neg32 offset
  let addable ← canAdd localSeconds inverseOffset
  if !addable then pure found
  else do
    let candidateUtc ← Trapping.add localSeconds inverseOffset.toInt64
    if offsetAtUtc rules candidateUtc != offset then pure found
    else if found.1.all (candidateUtc < ·.utcSeconds) then
      pure (some { utcSeconds := candidateUtc, resolvedLocalSeconds := localSeconds,
                   offsetSeconds := offset, shiftedForGap := false, ambiguousFold := false },
        found.2 + 1)
    else pure (found.1, found.2 + 1)

def mapLocal (rules : TimezoneRules) (localSeconds : Int64) : Option (Option LocalMapping) := do
  match ← Trapping.findSomeM (mapGap localSeconds) rules.transitions with
  | some mapping => pure (some mapping)
  | none =>
    let (earliest, validMappingCount) ←
      (distinctOffsets rules).foldlM (tryOffset rules localSeconds) (none, 0)
    pure (earliest.map fun mapping => { mapping with ambiguousFold := validMappingCount > 1 })

def secondsInRequestedDay (schedule : WeeklyAlarmSchedule) : Option Int64 := do
  let hours ← Trapping.mul schedule.localHour.toUInt64.toInt64 60
  let hours ← Trapping.mul hours 60
  let minutes ← Trapping.mul schedule.localMinute.toUInt64.toInt64 60
  Trapping.add hours minutes

/-- The body of the search loop for one date; `none` is `continue`. -/
def resolveDate (schedule : WeeklyAlarmSchedule) (rules : TimezoneRules) (afterUtcSeconds : Int64)
    (candidateDay : Int64) : Option (Option ResolvedOccurrence) := do
  let weekday ← weekdayFromDays candidateDay
  if schedule.isoWeekdayMask &&& weekdayBit weekday == 0 then pure none
  else do
    let start ← startOfDaySeconds candidateDay
    let secondsInRequestedDay ← secondsInRequestedDay schedule
    match start with
    | none => pure (some { status := .outOfRange })
    | some dayStart => do
      let most ← Trapping.sub Int64.maxValue secondsInRequestedDay
      if dayStart > most then pure (some { status := .outOfRange })
      else do
        let localSeconds ← Trapping.add dayStart secondsInRequestedDay
        match ← mapLocal rules localSeconds with
        | none => pure none
        | some mapping =>
          if mapping.utcSeconds ≤ afterUtcSeconds then pure none
          else do
            let resolvedDay ← floorDiv mapping.resolvedLocalSeconds kSecondsPerDay
            if mapping.shiftedForGap && resolvedDay != candidateDay then pure none
            else do
              let resolvedStart ← Trapping.mul resolvedDay kSecondsPerDay
              let secondsInDay ← Trapping.sub mapping.resolvedLocalSeconds resolvedStart
              match ← civilFromDays candidateDay with
              | none => pure (some { status := .outOfRange })
              | some localDate => do
                let hour ← Trapping.div secondsInDay (60 * 60)
                let minutes ← Trapping.div secondsInDay 60
                let minute ← Trapping.mod minutes 60
                pure (some { status := .resolved
                             scheduledUtcSeconds := mapping.utcSeconds
                             localDate := localDate
                             resolvedLocalHour := hour.toUInt64.toUInt8
                             resolvedLocalMinute := minute.toUInt64.toUInt8
                             utcOffsetSeconds := mapping.offsetSeconds
                             shiftedForGap := mapping.shiftedForGap
                             ambiguousFold := mapping.ambiguousFold })

/-- One round of the loop, with the increment behind a `continue`. -/
def searchDate (schedule : WeeklyAlarmSchedule) (rules : TimezoneRules) (afterUtcSeconds : Int64)
    (anchorDay : Int64) (dayDelta : Nat) : Option (Option ResolvedOccurrence) := do
  let candidateDay ← Trapping.add anchorDay (Int64.ofNat dayDelta)
  match ← resolveDate schedule rules afterUtcSeconds candidateDay with
  | some result => pure (some result)
  | none => do
    let _ ← Trapping.add (Int64.ofNat dayDelta) 1
    pure none

def resolveNextOccurrence (schedule : WeeklyAlarmSchedule) (rules : TimezoneRules)
    (afterUtcSeconds : Int64) : Option ResolvedOccurrence :=
  if schedule.localHour > 23 || schedule.localMinute > 59 || schedule.isoWeekdayMask == 0 ||
      schedule.isoWeekdayMask &&& ~~~kAllIsoWeekdays != 0 then
    pure { status := .invalidSchedule }
  else do
    let unusable ← Trapping.orElse
      (pure (schedule.timezoneName.isEmpty || schedule.timezoneRulesVersion.isEmpty ||
        rules.name.isEmpty || rules.version.isEmpty || schedule.timezoneName != rules.name ||
        schedule.timezoneRulesVersion != rules.version))
      (not <$> hasValidTransitionChain rules)
    if unusable then pure { status := .invalidRules }
    else if afterUtcSeconds == Int64.maxValue then pure { status := .outOfRange }
    else do
      let anchorOffset := (offsetAtUtc rules afterUtcSeconds).toInt64
      let unreachable ← Trapping.orElse
        (Trapping.andAlso (pure (anchorOffset > 0)) do
          let most ← Trapping.sub Int64.maxValue anchorOffset
          pure (afterUtcSeconds > most))
        (Trapping.andAlso (pure (anchorOffset < 0)) do
          let least ← Trapping.sub Int64.minValue anchorOffset
          pure (afterUtcSeconds < least))
      if unreachable then pure { status := .outOfRange }
      else do
        let anchorLocalSeconds ← Trapping.add afterUtcSeconds anchorOffset
        let anchorDay ← floorDiv anchorLocalSeconds kSecondsPerDay
        let found ← Trapping.findSomeM (searchDate schedule rules afterUtcSeconds anchorDay)
          (List.range 15)
        pure (found.getD { status := .noOccurrence })

/-! ### The guards -/

theorem validUtcOffset_eq (offset : Int32) :
    validUtcOffset offset = some (DawnDock.validUtcOffset offset) := by
  have lowest : Trapping.neg kSecondsPerDay = some (-kSecondsPerDay) := by decide
  exact Trapping.bind_eq lowest rfl

theorem canAdd_eq (value : Int64) (offset : Int32) :
    canAdd value offset = some (DawnDock.canAdd value offset) := by
  have low := offset.le_toInt
  have high := offset.toInt_lt
  apply Trapping.orElse_eq
  · apply Trapping.andAlso_eq rfl
    intro nonneg
    have := Int32.le_iff_toInt_le.mp (of_decide_eq_true nonneg)
    rw [Int32.toInt_zero] at this
    apply Trapping.bind_eq (Trapping.sub_eq _) rfl
    rw [Int32.toInt_toInt64, Int64.toInt_maxValue]
    constructor <;> omega
  · intro _
    apply Trapping.andAlso_eq rfl
    intro negative
    have := Int32.lt_iff_toInt_lt.mp (of_decide_eq_true negative)
    rw [Int32.toInt_zero] at this
    apply Trapping.bind_eq (Trapping.sub_eq _) rfl
    rw [Int32.toInt_toInt64, Int64.toInt_minValue]
    constructor <;> omega

theorem validTransitions_eq (previousTransition : Option Int64) (activeOffset : Int32)
    (transitions : List UtcOffsetTransition) :
    validTransitions previousTransition activeOffset transitions =
      some (DawnDock.validTransitions previousTransition activeOffset transitions) := by
  induction transitions generalizing previousTransition activeOffset with
  | nil => rfl
  | cons transition rest ih =>
      unfold validTransitions DawnDock.validTransitions
      simp only [validUtcOffset_eq, canAdd_eq, Option.pure_def, Option.map_eq_map, Option.map_some,
        Trapping.orElse_some]
      apply Trapping.bind_eq rfl
      split
      · rfl
      · exact ih ..

theorem hasValidTransitionChain_eq (rules : TimezoneRules) :
    hasValidTransitionChain rules = some (DawnDock.hasValidTransitionChain rules) :=
  Trapping.andAlso_eq (validUtcOffset_eq _) fun _ => validTransitions_eq ..

/-! ### Days and dates -/

theorem floorDiv_eq (seconds : Int64) :
    floorDiv seconds kSecondsPerDay = some (DawnDock.floorDiv seconds kSecondsPerDay) := by
  have low := seconds.le_toInt
  have high := seconds.toInt_lt
  unfold floorDiv DawnDock.floorDiv
  apply Trapping.bind_eq (Trapping.div_eq (by decide))
  apply Trapping.bind_eq (Trapping.mod_eq (by decide))
  dsimp only
  split
  · have quotient : (seconds / kSecondsPerDay).toInt = seconds.toInt.tdiv 86400 :=
      toInt_div (by decide)
    have bounds := Int.tdiv_eq_ediv (a := seconds.toInt) (b := 86400)
    rw [show Int.sign 86400 = 1 from rfl] at bounds
    apply Trapping.sub_eq
    rw [quotient, show (1 : Int64).toInt = 1 from rfl]
    constructor <;> split at bounds <;> omega
  · rfl

theorem weekdayFromDays_eq {days : Int64} (near : NearDay days) :
    weekdayFromDays days = some (DawnDock.weekdayFromDays days) := by
  obtain ⟨low, high⟩ := near
  have remainder : ((days + 3) % 7).toInt = (days + 3).toInt.tmod 7 := by
    rw [Int64.toInt_mod]
    rfl
  unfold weekdayFromDays
  apply Trapping.bind_eq (Trapping.add_eq _)
  · apply Trapping.bind_eq (Trapping.mod_eq (by decide))
    refine Trapping.bind_eq (a := if (days + 3) % 7 < 0 then (days + 3) % 7 + 7
      else (days + 3) % 7) ?_ rfl
    split
    · have := Int.tmod_lt_of_pos (days + 3).toInt (by decide : (0 : Int) < 7)
      have := Int.lt_tmod_of_pos (days + 3).toInt (by decide : (0 : Int) < 7)
      apply Trapping.add_eq
      rw [remainder, show (7 : Int64).toInt = 7 from rfl]
      constructor <;> omega
    · rfl
  · rw [show (3 : Int64).toInt = 3 from rfl]
    constructor <;> omega

theorem startOfDaySeconds_eq (day : Int64) :
    startOfDaySeconds day = some (DawnDock.startOfDaySeconds day) := by
  unfold startOfDaySeconds DawnDock.startOfDaySeconds
  apply Trapping.bind_eq (Trapping.div_eq (by decide))
  apply Trapping.bind_eq (Trapping.div_eq (by decide))
  split
  · rfl
  · rename_i inside
    apply Trapping.bind_eq (Trapping.mul_eq _) rfl
    simp only [Bool.or_eq_true, decide_eq_true_eq, gt_iff_lt, not_or, Int64.not_lt,
      Int64.le_iff_toInt_le] at inside
    obtain ⟨most, least⟩ := inside
    have last : (Int64.maxValue / kSecondsPerDay).toInt = 106751991167300 := by decide
    have first : (Int64.minValue / kSecondsPerDay).toInt = -106751991167300 := by decide
    rw [kSecondsPerDay_toInt]
    constructor <;> omega

theorem secondsInRequestedDay_eq (schedule : WeeklyAlarmSchedule) :
    secondsInRequestedDay schedule = some (schedule.localHour.toUInt64.toInt64 * 60 * 60 +
      schedule.localMinute.toUInt64.toInt64 * 60) := by
  have hour_lt := schedule.localHour.toNat_lt
  have minute_lt := schedule.localMinute.toNat_lt
  have hour := toInt64_toInt_uint8 schedule.localHour
  have minute := toInt64_toInt_uint8 schedule.localMinute
  have sixty : (60 : Int64).toInt = 60 := rfl
  have minutes : (schedule.localHour.toUInt64.toInt64 * 60).toInt =
      schedule.localHour.toNat * 60 := by
    rw [toInt_mul] <;> rw [hour, sixty]
    omega
  have seconds : (schedule.localHour.toUInt64.toInt64 * 60 * 60).toInt =
      schedule.localHour.toNat * 60 * 60 := by
    rw [toInt_mul] <;> rw [minutes, sixty]
    omega
  have behind : (schedule.localMinute.toUInt64.toInt64 * 60).toInt =
      schedule.localMinute.toNat * 60 := by
    rw [toInt_mul] <;> rw [minute, sixty]
    omega
  unfold secondsInRequestedDay
  apply Trapping.bind_eq (Trapping.mul_eq _)
  · apply Trapping.bind_eq (Trapping.mul_eq _)
    · apply Trapping.bind_eq (Trapping.mul_eq _)
      · apply Trapping.add_eq
        rw [seconds, behind]
        constructor <;> omega
      · rw [minute, sixty]
        constructor <;> omega
    · rw [minutes, sixty]
      constructor <;> omega
  · rw [hour, sixty]
    constructor <;> omega

/-- The years of an era far from the ends of the range. -/
theorem eraYear_fits {eraOf : Int64} (near : -2 ^ 50 ≤ eraOf.toInt ∧ eraOf.toInt ≤ 2 ^ 50)
    (yearOfEra : UInt32) {carry : Int64} (carry_mem : carry = 1 ∨ carry = 0) :
    Trapping.mul eraOf 400 = some (eraOf * 400) ∧
      Trapping.add yearOfEra.toUInt64.toInt64 (eraOf * 400) =
        some (yearOfEra.toUInt64.toInt64 + eraOf * 400) ∧
      Trapping.add (yearOfEra.toUInt64.toInt64 + eraOf * 400) carry =
        some (yearOfEra.toUInt64.toInt64 + eraOf * 400 + carry) := by
  have year_lt := yearOfEra.toNat_lt
  have year := toInt64_toInt_uint32 yearOfEra
  have four_hundred : (400 : Int64).toInt = 400 := rfl
  have carry_bounds : 0 ≤ carry.toInt ∧ carry.toInt ≤ 1 := by
    rcases carry_mem with rfl | rfl <;> decide
  have product : (eraOf * 400).toInt = eraOf.toInt * 400 := by
    apply toInt_mul
    rw [four_hundred]
    omega
  have march : (yearOfEra.toUInt64.toInt64 + eraOf * 400).toInt =
      yearOfEra.toNat + eraOf.toInt * 400 := by
    rw [toInt_add] <;> rw [year, product]
    omega
  refine ⟨Trapping.mul_eq ?_, Trapping.add_eq ?_, Trapping.add_eq ?_⟩
  · rw [four_hundred]
    constructor <;> omega
  · rw [year, product]
    constructor <;> omega
  · rw [march]
    constructor <;> omega

theorem civilFromDays_eq {days : Int64} (near : NearDay days) :
    civilFromDays days = some (DawnDock.civilFromDays days) := by
  have is_era := era_toInt near
  obtain ⟨low, high⟩ := near
  have bounds : era days.toInt = (days.toInt + 719468) / 146097 := rfl
  have offset : (719468 : Int64).toInt = 719468 := rfl
  have back : (146096 : Int64).toInt = 146096 := rfl
  have cycle : (146097 : Int64).toInt = 146097 := rfl
  have shifted_toInt : (days + 719468).toInt = days.toInt + 719468 := by
    apply toInt_add
    rw [offset]
    omega
  unfold civilFromDays DawnDock.civilFromDays
  extract_lets shifted eraOf dayOfEra yearOfEra march dayOfYear monthPrime day month year
  refine Trapping.bind_eq (a := shifted) (Trapping.add_eq ?_) ?_
  · rw [offset]
    constructor <;> omega
  refine Trapping.bind_eq (a := if shifted ≥ 0 then shifted else shifted - 146096) ?_ ?_
  · split
    · rfl
    · apply Trapping.sub_eq
      rw [shifted_toInt, back]
      constructor <;> omega
  refine Trapping.bind_eq (a := eraOf) (Trapping.div_eq (by decide)) ?_
  change eraOf.toInt = _ at is_era
  have product : (eraOf * 146097).toInt = era days.toInt * 146097 := by
    rw [toInt_mul] <;> rw [is_era, cycle]
    omega
  apply Trapping.bind_eq (Trapping.mul_eq _)
  · apply Trapping.bind_eq (Trapping.sub_eq _)
    · have near : -2 ^ 50 ≤ eraOf.toInt ∧ eraOf.toInt ≤ 2 ^ 50 := by omega
      apply Trapping.bind_eq (eraYear_fits near yearOfEra (.inl rfl)).1
      apply Trapping.bind_eq (eraYear_fits near yearOfEra (.inl rfl)).2.1
      apply Trapping.bind_eq (eraYear_fits near yearOfEra (ite_eq_or_eq ..)).2.2
      exact (apply_ite some _ _ _).symm
    · rw [shifted_toInt, product]
      constructor <;> omega
  · rw [is_era, cycle]
    constructor <;> omega

/-! ### Wall times -/

theorem mapGap_eq {transition : UtcOffsetTransition} (sound : transition.Sound)
    (localSeconds : Int64) :
    mapGap localSeconds transition = some (DawnDock.mapGap localSeconds transition) := by
  unfold mapGap DawnDock.mapGap
  split
  · rfl
  · refine Trapping.bind_eq (a := _) (Trapping.add_eq ?_) ?_
    · rw [Int32.toInt_toInt64]
      exact sound.before_fits
    refine Trapping.bind_eq (a := _) (Trapping.add_eq ?_) ?_
    · rw [Int32.toInt_toInt64]
      exact sound.after_fits
    exact (apply_ite some _ _ _).symm

theorem tryOffset_eq (rules : TimezoneRules) {offset : Int32}
    (bounded : DawnDock.validUtcOffset offset = true) (localSeconds : Int64)
    (found : Option LocalMapping × Nat) :
    tryOffset rules localSeconds found offset =
      some (DawnDock.tryOffset rules localSeconds found offset) := by
  obtain ⟨low, high⟩ := validUtcOffset_iff.mp bounded
  unfold tryOffset DawnDock.tryOffset
  refine Trapping.bind_eq (a := -offset) (Trapping.neg32_eq ⟨by omega, by omega⟩) ?_
  refine Trapping.bind_eq (a := _) (canAdd_eq ..) ?_
  dsimp only
  split
  · rfl
  · rename_i addable
    rw [Bool.not_eq_true, Bool.not_eq_false', canAdd_iff] at addable
    refine Trapping.bind_eq (a := localSeconds + (-offset).toInt64) (Trapping.add_eq ?_) ?_
    · rw [Int32.toInt_toInt64]
      exact addable
    split
    · rfl
    · exact (apply_ite some _ _ _).symm

/-- Only a wall time in a gap is moved. -/
theorem mapLocal_unmoved {rules : TimezoneRules} {localSeconds : Int64} {mapping : LocalMapping}
    (found : DawnDock.mapLocal rules localSeconds = some mapping) :
    mapping.shiftedForGap = true ∨ mapping.resolvedLocalSeconds = localSeconds := by
  have kept : ∀ offsets : List Int32, ∀ state : Option LocalMapping × Nat,
      (∀ other ∈ state.1, other.resolvedLocalSeconds = localSeconds) →
      ∀ other ∈ (offsets.foldl (DawnDock.tryOffset rules localSeconds) state).1,
        other.resolvedLocalSeconds = localSeconds := by
    intro offsets
    induction offsets with
    | nil => exact fun _ before => before
    | cons offset rest ih =>
        intro state before
        apply ih
        unfold DawnDock.tryOffset
        dsimp only
        split
        · exact before
        · split
          · exact before
          · split
            · rintro _ ⟨⟩
              rfl
            · exact before
  unfold DawnDock.mapLocal at found
  split at found
  · rename_i moved
    cases found
    obtain ⟨transition, -, gap⟩ := List.exists_of_findSome?_eq_some moved
    unfold DawnDock.mapGap at gap
    split at gap
    · cases gap
    · dsimp only at gap
      split at gap
      · cases gap
        exact .inl rfl
      · cases gap
  · obtain ⟨earliest, is_earliest, rfl⟩ := Option.map_eq_some_iff.mp found
    exact .inr (kept _ (none, 0) (fun _ mem => by cases mem) earliest is_earliest)

/-- The start of the day a kept mapping falls on. -/
theorem resolvedStart_fits {rules : TimezoneRules} {localSeconds day start : Int64} {mapping : LocalMapping}
    (found : DawnDock.mapLocal rules localSeconds = some mapping)
    (start_toInt : start.toInt = day.toInt * 86400) (le : start.toInt ≤ localSeconds.toInt)
    (kept : ¬ (mapping.shiftedForGap &&
      DawnDock.floorDiv mapping.resolvedLocalSeconds kSecondsPerDay != day) = true) :
    Trapping.mul (DawnDock.floorDiv mapping.resolvedLocalSeconds kSecondsPerDay) kSecondsPerDay =
        some (DawnDock.floorDiv mapping.resolvedLocalSeconds kSecondsPerDay * kSecondsPerDay) ∧
      Trapping.sub mapping.resolvedLocalSeconds
          (DawnDock.floorDiv mapping.resolvedLocalSeconds kSecondsPerDay * kSecondsPerDay) =
        some (mapping.resolvedLocalSeconds -
          DawnDock.floorDiv mapping.resolvedLocalSeconds kSecondsPerDay * kSecondsPerDay) := by
  have floor := floorDiv_toInt mapping.resolvedLocalSeconds
  have start_low := start.le_toInt
  have low := mapping.resolvedLocalSeconds.le_toInt
  have high := mapping.resolvedLocalSeconds.toInt_lt
  have least : -2 ^ 63 ≤ mapping.resolvedLocalSeconds.toInt / 86400 * 86400 := by
    rcases mapLocal_unmoved found with moved | unmoved
    · rw [moved, Bool.true_and, bne_iff_ne, not_not] at kept
      rw [kept] at floor
      omega
    · rw [unmoved] at *
      omega
  generalize DawnDock.floorDiv mapping.resolvedLocalSeconds kSecondsPerDay = resolvedDay at *
  have product : (resolvedDay * kSecondsPerDay).toInt =
      mapping.resolvedLocalSeconds.toInt / 86400 * 86400 := by
    rw [toInt_mul] <;> rw [floor, kSecondsPerDay_toInt]
    omega
  refine ⟨Trapping.mul_eq ?_, Trapping.sub_eq ?_⟩
  · rw [floor, kSecondsPerDay_toInt]
    constructor <;> omega
  · rw [product]
    constructor <;> omega

section Rules

variable {rules : TimezoneRules} (accepted : DawnDock.hasValidTransitionChain rules = true)

include accepted

theorem mapLocal_eq (localSeconds : Int64) :
    mapLocal rules localSeconds = some (DawnDock.mapLocal rules localSeconds) := by
  have gaps := Trapping.findSomeM_eq (l := rules.transitions) fun transition mem =>
    mapGap_eq (transition_sound accepted mem) localSeconds
  have offsets := Trapping.foldlM_eq (fun offset mem =>
    tryOffset_eq rules (distinctOffsets_valid accepted mem) localSeconds) (none, 0)
  unfold mapLocal DawnDock.mapLocal
  apply Trapping.bind_eq gaps
  cases rules.transitions.findSome? (DawnDock.mapGap localSeconds) with
  | some mapping => rfl
  | none => exact Trapping.bind_eq offsets rfl

theorem resolveDate_eq (schedule : WeeklyAlarmSchedule) (afterUtcSeconds : Int64) {day : Int64}
    (near : NearDay day) :
    resolveDate schedule rules afterUtcSeconds day =
      some (DawnDock.resolveDate schedule rules afterUtcSeconds day) := by
  have requested_toInt :=
    secondsInRequestedDay_toInt schedule.localHour schedule.localMinute
  have hour_lt := schedule.localHour.toNat_lt
  have minute_lt := schedule.localMinute.toNat_lt
  unfold resolveDate DawnDock.resolveDate
  apply Trapping.bind_eq (weekdayFromDays_eq near)
  split
  · rfl
  apply Trapping.bind_eq (startOfDaySeconds_eq day)
  apply Trapping.bind_eq (secondsInRequestedDay_eq schedule)
  generalize schedule.localHour.toUInt64.toInt64 * 60 * 60 +
    schedule.localMinute.toUInt64.toInt64 * 60 = requested at *
  obtain no_start | ⟨-, start, start_eq, start_toInt⟩ := startOfDaySeconds_cases day
  · rw [no_start]
    rfl
  rw [start_eq]
  have room : Trapping.FitsInt64 (Int64.maxValue.toInt - requested.toInt) := by
    rw [Int64.toInt_maxValue]
    constructor <;> omega
  apply Trapping.bind_eq (Trapping.sub_eq room)
  dsimp only
  split
  · rfl
  rename_i fits
  have top : (Int64.maxValue - requested).toInt = 2 ^ 63 - 1 - requested.toInt := by
    rw [toInt_sub room, Int64.toInt_maxValue]
  rw [gt_iff_lt, Int64.lt_iff_toInt_lt, top] at fits
  have start_low := start.le_toInt
  have sum : Trapping.FitsInt64 (start.toInt + requested.toInt) := by
    constructor <;> omega
  apply Trapping.bind_eq (Trapping.add_eq sum)
  apply Trapping.bind_eq (mapLocal_eq accepted _)
  cases found : DawnDock.mapLocal rules (start + requested) with
  | none => rfl
  | some mapping =>
      dsimp only
      split
      · rfl
      apply Trapping.bind_eq (floorDiv_eq _)
      split
      · rfl
      rename_i kept
      have le : start.toInt ≤ (start + requested).toInt := by
        rw [toInt_add sum]
        omega
      obtain ⟨product, difference⟩ := resolvedStart_fits found start_toInt le kept
      apply Trapping.bind_eq product
      apply Trapping.bind_eq difference
      apply Trapping.bind_eq (civilFromDays_eq near)
      cases DawnDock.civilFromDays day with
      | none => rfl
      | some localDate =>
          apply Trapping.bind_eq (Trapping.div_eq (by decide))
          apply Trapping.bind_eq (Trapping.div_eq (by decide))
          exact Trapping.bind_eq (Trapping.mod_eq (by decide)) rfl

/-! ### The search -/

theorem searchDate_eq (schedule : WeeklyAlarmSchedule) (afterUtcSeconds : Int64)
    {anchorDay : Int64} (near : -2 ^ 60 ≤ anchorDay.toInt ∧ anchorDay.toInt ≤ 2 ^ 60)
    {dayDelta : Nat} (mem : dayDelta ∈ List.range 15) :
    searchDate schedule rules afterUtcSeconds anchorDay dayDelta =
      some (DawnDock.resolveDate schedule rules afterUtcSeconds
        (anchorDay + Int64.ofNat dayDelta)) := by
  have lt := List.mem_range.mp mem
  have delta : (Int64.ofNat dayDelta).toInt = dayDelta := Int64.toInt_ofNat_of_lt (by omega)
  have sum : Trapping.FitsInt64 (anchorDay.toInt + (Int64.ofNat dayDelta).toInt) := by
    rw [delta]
    constructor <;> omega
  have candidate : NearDay (anchorDay + Int64.ofNat dayDelta) := by
    unfold NearDay
    rw [toInt_add sum, delta]
    omega
  have next : Trapping.FitsInt64 ((Int64.ofNat dayDelta).toInt + (1 : Int64).toInt) := by
    rw [delta, show (1 : Int64).toInt = 1 from rfl]
    constructor <;> omega
  unfold searchDate
  apply Trapping.bind_eq (Trapping.add_eq sum)
  apply Trapping.bind_eq (resolveDate_eq accepted schedule afterUtcSeconds candidate)
  cases DawnDock.resolveDate schedule rules afterUtcSeconds (anchorDay + Int64.ofNat dayDelta) with
  | some result => rfl
  | none => exact Trapping.bind_eq (Trapping.add_eq next) rfl

theorem anchorRange_eq (afterUtcSeconds : Int64) :
    Trapping.orElse
      (Trapping.andAlso (pure ((offsetAtUtc rules afterUtcSeconds).toInt64 > 0)) do
        let most ← Trapping.sub Int64.maxValue (offsetAtUtc rules afterUtcSeconds).toInt64
        pure (afterUtcSeconds > most))
      (Trapping.andAlso (pure ((offsetAtUtc rules afterUtcSeconds).toInt64 < 0)) do
        let least ← Trapping.sub Int64.minValue (offsetAtUtc rules afterUtcSeconds).toInt64
        pure (afterUtcSeconds < least)) =
      some (decide ((offsetAtUtc rules afterUtcSeconds).toInt64 > 0) &&
          decide (afterUtcSeconds >
            Int64.maxValue - (offsetAtUtc rules afterUtcSeconds).toInt64) ||
        decide ((offsetAtUtc rules afterUtcSeconds).toInt64 < 0) &&
          decide (afterUtcSeconds <
            Int64.minValue - (offsetAtUtc rules afterUtcSeconds).toInt64)) := by
  have bounds := (zone_within accepted).offset_mem afterUtcSeconds.toInt
  rw [← offsetAtUtc_toInt accepted, ← Int32.toInt_toInt64] at bounds
  generalize (offsetAtUtc rules afterUtcSeconds).toInt64 = anchorOffset at *
  apply Trapping.orElse_eq
  · apply Trapping.andAlso_eq rfl
    intro positive
    have := Int64.lt_iff_toInt_lt.mp (of_decide_eq_true positive)
    rw [Int64.toInt_zero] at this
    apply Trapping.bind_eq (Trapping.sub_eq _) rfl
    rw [Int64.toInt_maxValue]
    constructor <;> omega
  · intro _
    apply Trapping.andAlso_eq rfl
    intro negative
    have := Int64.lt_iff_toInt_lt.mp (of_decide_eq_true negative)
    rw [Int64.toInt_zero] at this
    apply Trapping.bind_eq (Trapping.sub_eq _) rfl
    rw [Int64.toInt_minValue]
    constructor <;> omega

end Rules

theorem resolveNextOccurrence_eq (schedule : WeeklyAlarmSchedule) (rules : TimezoneRules)
    (afterUtcSeconds : Int64) :
    resolveNextOccurrence schedule rules afterUtcSeconds =
      some (DawnDock.resolveNextOccurrence schedule rules afterUtcSeconds) := by
  unfold resolveNextOccurrence DawnDock.resolveNextOccurrence
  split
  · rfl
  have chain : not <$> hasValidTransitionChain rules =
      some (!DawnDock.hasValidTransitionChain rules) := by
    rw [hasValidTransitionChain_eq]
    rfl
  apply Trapping.bind_eq (Trapping.orElse_eq rfl fun _ => chain)
  split
  · rfl
  rename_i usable
  obtain ⟨-, -, -, -, accepted⟩ := usable_iff.mp usable
  split
  · rfl
  apply Trapping.bind_eq (anchorRange_eq accepted afterUtcSeconds)
  dsimp only
  split
  · rfl
  rename_i reachable
  have fits := (anchor_fits_iff accepted).mp reachable
  have offset : (offsetAtUtc rules afterUtcSeconds).toInt64.toInt =
      (rules.zone accepted).offset afterUtcSeconds.toInt := by
    rw [Int32.toInt_toInt64, offsetAtUtc_toInt accepted]
  apply Trapping.bind_eq (Trapping.add_eq _)
  · apply Trapping.bind_eq (floorDiv_eq _)
    have day := floorDiv_toInt (afterUtcSeconds + (offsetAtUtc rules afterUtcSeconds).toInt64)
    have low := (afterUtcSeconds + (offsetAtUtc rules afterUtcSeconds).toInt64).le_toInt
    have high := (afterUtcSeconds + (offsetAtUtc rules afterUtcSeconds).toInt64).toInt_lt
    apply Trapping.bind_eq (Trapping.findSomeM_eq fun dayDelta mem =>
      searchDate_eq accepted schedule afterUtcSeconds _ mem)
    · rfl
    · omega
  · rw [offset]
    exact fits

end Trapped

/-! ### The unguarded arithmetic -/

section Unguarded

variable {schedule : WeeklyAlarmSchedule} {rules : TimezoneRules} {afterUtcSeconds : Int64}

/-- A date of the search window, from the anchor's local time over the integers. -/
def exactDay (rules : TimezoneRules) (afterUtcSeconds : Int64) (dayDelta : Nat) : Int :=
  (afterUtcSeconds.toInt + (offsetAtUtc rules afterUtcSeconds).toInt) / 86400 + dayDelta

/-- Without the guards some operation leaves its type: a transition's local time, an
offset's inverse, the anchor's local time or, on a date of the window, its start, the
requested time or that time's instant under an offset of the rules. A civil year is to
fit on some date of the window. -/
inductive WouldOverflow (schedule : WeeklyAlarmSchedule) (rules : TimezoneRules)
    (afterUtcSeconds : Int64) : Prop
  | transition {transition : UtcOffsetTransition} (mem : transition ∈ rules.transitions)
      (sum : ¬ Trapping.FitsInt64 (transition.shift.instant + transition.shift.before) ∨
        ¬ Trapping.FitsInt64 (transition.shift.instant + transition.shift.after))
  | inverse {offset : Int32} (mem : offset ∈ distinctOffsets rules)
      (negation : ¬ FitsInt32 (-offset.toInt))
  | anchor (sum : ¬ Trapping.FitsInt64 (afterUtcSeconds.toInt + (offsetAtUtc rules afterUtcSeconds).toInt))
  | start {dayDelta : Nat} (lt : dayDelta < 15)
      (product : ¬ Trapping.FitsInt64 (exactDay rules afterUtcSeconds dayDelta * 86400))
  | requested {dayDelta : Nat} (lt : dayDelta < 15)
      (sum : ¬ Trapping.FitsInt64 (schedule.requested (exactDay rules afterUtcSeconds dayDelta)))
  | instant {dayDelta : Nat} {offset : Int32} (lt : dayDelta < 15)
      (mem : offset ∈ distinctOffsets rules)
      (difference : ¬ Trapping.FitsInt64
        (schedule.requested (exactDay rules afterUtcSeconds dayDelta) - offset.toInt))
  | year (unfit : ∀ dayDelta < 15, ¬ CivilYearFits (exactDay rules afterUtcSeconds dayDelta))

/-- A resolved search ran over representable dates. -/
theorem exists_exactDay_fits
    (resolved : (resolveNextOccurrence schedule rules afterUtcSeconds).status = .resolved) :
    Searches schedule rules afterUtcSeconds ∧
      ∃ dayDelta < 15, CivilYearFits (exactDay rules afterUtcSeconds dayDelta) := by
  obtain ⟨-, unresolved⟩ | ⟨searches, eq⟩ := @resolveNextOccurrence_cases schedule rules
    afterUtcSeconds
  · exact absurd resolved unresolved
  refine ⟨searches, ?_⟩
  rw [eq] at resolved
  cases found : (List.range 15).findSome? fun dayDelta => resolveDate schedule rules
      afterUtcSeconds (windowDay rules afterUtcSeconds dayDelta) with
  | none =>
      rw [found] at resolved
      cases resolved
  | some result =>
      rw [found, Option.getD_some] at resolved
      obtain ⟨dayDelta, mem, at_date⟩ := List.exists_of_findSome?_eq_some found
      have lt := List.mem_range.mp mem
      have fits := resolveDate_fits at_date resolved
      rw [windowDay_toInt searches lt, anchorDay, Zone.wall,
        ← offsetAtUtc_toInt searches.accepted] at fits
      exact ⟨dayDelta, lt, fits⟩

/-- Where one date of the window has a representable year, no requested time of the window
is near an end of the range. -/
theorem requested_bounds (valid : schedule.Valid) {dayDelta other : Nat} (lt : dayDelta < 15)
    (fits : CivilYearFits (exactDay rules afterUtcSeconds dayDelta)) (other_lt : other < 15) :
    (-10 ^ 13 ≤ exactDay rules afterUtcSeconds other ∧
        exactDay rules afterUtcSeconds other ≤ 10 ^ 13) ∧
      -10 ^ 18 ≤ schedule.requested (exactDay rules afterUtcSeconds other) ∧
        schedule.requested (exactDay rules afterUtcSeconds other) ≤ 10 ^ 18 := by
  have hour := valid.hour
  have minute := valid.minute
  have bounds := fits.bounds
  unfold WeeklyAlarmSchedule.requested exactDay at *
  omega

theorem not_wouldOverflow
    (resolved : (resolveNextOccurrence schedule rules afterUtcSeconds).status = .resolved) :
    ¬ WouldOverflow schedule rules afterUtcSeconds := by
  obtain ⟨searches, dayDelta, lt, fits⟩ := exists_exactDay_fits resolved
  have accepted := searches.accepted
  have within : ∀ {offset : Int32}, offset ∈ distinctOffsets rules →
      -86400 ≤ offset.toInt ∧ offset.toInt ≤ 86400 := fun mem =>
    validUtcOffset_iff.mp (distinctOffsets_valid accepted mem)
  intro overflow
  cases overflow with
  | transition mem sum =>
      have sound := transition_sound accepted mem
      exact sum.elim (fun before => before sound.before_fits) fun after => after sound.after_fits
  | inverse mem negation =>
      have := within mem
      exact negation ⟨by omega, by omega⟩
  | anchor sum =>
      have anchor := searches.anchor_fits
      rw [Zone.wall, ← offsetAtUtc_toInt accepted] at anchor
      exact sum anchor
  | start later product =>
      have := (requested_bounds searches.valid lt fits later).1
      exact product ⟨by omega, by omega⟩
  | requested later sum =>
      have := (requested_bounds searches.valid lt fits later).2
      exact sum ⟨by omega, by omega⟩
  | instant later mem difference =>
      have := within mem
      have := (requested_bounds searches.valid lt fits later).2
      exact difference ⟨by omega, by omega⟩
  | year unfit => exact unfit dayDelta lt fits

end Unguarded

/-- Every signed operation of `resolve_next_occurrence` stays in its type, and an input
that would take one out of it is not answered `resolved`. -/
theorem resolver_never_overflows (schedule : WeeklyAlarmSchedule) (rules : TimezoneRules)
    (afterUtcSeconds : Int64) :
    Trapped.resolveNextOccurrence schedule rules afterUtcSeconds =
        some (resolveNextOccurrence schedule rules afterUtcSeconds) ∧
      (WouldOverflow schedule rules afterUtcSeconds →
        (resolveNextOccurrence schedule rules afterUtcSeconds).status ≠ .resolved) :=
  ⟨Trapped.resolveNextOccurrence_eq schedule rules afterUtcSeconds,
    fun overflow resolved => not_wouldOverflow resolved overflow⟩

theorem resolver_never_overflows_at_the_first_instant :
    (resolveNextOccurrence newYorkAlarm newYorkRules Int64.minValue).status ≠ .resolved :=
  (resolver_never_overflows newYorkAlarm newYorkRules Int64.minValue).2 (.anchor (by decide))

end DawnDock
