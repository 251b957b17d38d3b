import Mathlib.Data.List.Basic

/-!
The resolver of the companion app (`recurrence.dart`), a port of the firmware's.

A Dart `int` is a wrapping 64-bit integer, `~/` and `remainder` truncate, and `%`
is never negative.
-/

namespace DawnDock.App

def secondsPerDay : Int64 := 24 * 60 * 60
def allIsoWeekdays : Int64 := 0x7f

def kInt64Max : Int64 := 0x7fffffffffffffff
def kInt64Min : Int64 := ~~~0x7fffffffffffffff
def kCivilYearMin : Int64 := -2147483648
def kCivilYearMax : Int64 := 2147483647

/-- Why there is an occurrence or none. -/
inductive OccurrenceResolutionStatus where
  | resolved | noOccurrence | invalidSchedule | invalidRules | outOfRange
deriving DecidableEq, Repr

/-- A change of the offset from UTC, at an instant. -/
structure UtcOffsetTransition where
  atUtcSeconds : Int64
  offsetBeforeSeconds : Int64
  offsetAfterSeconds : Int64
deriving DecidableEq, Repr

/-- A zone as the offset it starts from and the transitions after it. -/
structure TimezoneRules where
  name : String
  version : String
  initialUtcOffsetSeconds : Int64
  transitions : List UtcOffsetTransition
deriving DecidableEq, Repr

/-- A weekly alarm: bit `i` of the mask is ISO weekday `i + 1`. -/
structure WeeklyOccurrenceSchedule where
  localHour : Int64
  localMinute : Int64
  isoWeekdayMask : Int64
  timezoneName : String
  timezoneRulesVersion : String
deriving DecidableEq, Repr

structure CivilDate where
  year : Int64 := 0
  month : Int64 := 0
  day : Int64 := 0
deriving DecidableEq, Repr

/-- The answer of the resolver; a failure leaves every field but the status at its default. -/
structure ResolvedOccurrence where
  status : OccurrenceResolutionStatus
  scheduledUtcSeconds : Int64 := 0
  localDate : CivilDate := {}
  resolvedLocalHour : Int64 := 0
  resolvedLocalMinute : Int64 := 0
  utcOffsetSeconds : Int64 := 0
  shiftedForGap : Bool := false
  ambiguousFold : Bool := false
deriving DecidableEq, Repr

/-- Dart's `%`. -/
def modulo (value divisor : Int64) : Int64 :=
  let remainder := value % divisor
  if remainder < 0 then (if divisor < 0 then remainder - divisor else remainder + divisor)
  else remainder

/-- An offset of a day at most. -/
def validUtcOffset (offset : Int64) : Bool := offset ≥ -secondsPerDay && offset ≤ secondsPerDay

/-- The sum does not leave 64 bits. -/
def canAdd (value offset : Int64) : Bool :=
  (offset ≥ 0 && value ≤ kInt64Max - offset) || (offset < 0 && value ≥ kInt64Min - offset)

/-- The quotient towards minus infinity; `~/` and `remainder` go towards zero. -/
def floorDiv (numerator denominator : Int64) : Int64 :=
  let quotient := numerator / denominator
  let remainder := numerator % denominator
  if remainder < 0 then quotient - 1 else quotient

def weekdayIndexFromDays (days : Int64) : Int64 :=
  -- 1970-01-01 was Thursday (firmware weekday index 3)
  let index := (days + 3) % 7
  if index < 0 then index + 7 else index

/-- The Gregorian date of a day since 1970, if the device can hold its year. -/
def civilFromDays (days : Int64) : Option CivilDate :=
  let days := days + 719468
  let era := (if days ≥ 0 then days else days - 146096) / 146097
  let dayOfEra := days - era * 146097
  let yearOfEra := (dayOfEra - dayOfEra / 1460 + dayOfEra / 36524 - dayOfEra / 146096) / 365
  let year := yearOfEra + era * 400
  let dayOfYear := dayOfEra - (365 * yearOfEra + yearOfEra / 4 - yearOfEra / 100)
  let monthPrime := (5 * dayOfYear + 2) / 153
  let day := dayOfYear - (153 * monthPrime + 2) / 5 + 1
  let month := if monthPrime < 10 then monthPrime + 3 else monthPrime - 9
  let year := if month ≤ 2 then year + 1 else year
  if year < kCivilYearMin || year > kCivilYearMax then none
  else some { year := year, month := month, day := day }

/-- The first second of a day, unless it leaves 64 bits. -/
def startOfDaySeconds (day : Int64) : Option Int64 :=
  if day > kInt64Max / secondsPerDay || day < kInt64Min / secondsPerDay then none
  else some (day * secondsPerDay)

/-- The loop of `_offsetAtUtc`, `offset` holding what the loop has reached. -/
def offsetAtUtcLoop (utcSeconds offset : Int64) : List UtcOffsetTransition → Int64
  | [] => offset
  | transition :: rest =>
    if utcSeconds < transition.atUtcSeconds then offset
    else offsetAtUtcLoop utcSeconds transition.offsetAfterSeconds rest

/-- The offset in force at an instant. -/
def offsetAtUtc (rules : TimezoneRules) (utcSeconds : Int64) : Int64 :=
  offsetAtUtcLoop utcSeconds rules.initialUtcOffsetSeconds rules.transitions

/-- The loop of `_hasValidTransitionChain`. -/
def validTransitions (previousTransition : Option Int64) (activeOffset : Int64) :
    List UtcOffsetTransition → Bool
  | [] => true
  | transition :: rest =>
    if previousTransition.any (transition.atUtcSeconds ≤ ·) ||
        transition.offsetBeforeSeconds != activeOffset ||
        !validUtcOffset transition.offsetBeforeSeconds ||
        !validUtcOffset transition.offsetAfterSeconds ||
        !canAdd transition.atUtcSeconds transition.offsetBeforeSeconds ||
        !canAdd transition.atUtcSeconds transition.offsetAfterSeconds ||
        transition.offsetBeforeSeconds == transition.offsetAfterSeconds then false
    else validTransitions (some transition.atUtcSeconds) transition.offsetAfterSeconds rest

/-- Transitions in order, each from the offset that the one before it left. -/
def hasValidTransitionChain (rules : TimezoneRules) : Bool :=
  validUtcOffset rules.initialUtcOffsetSeconds &&
    validTransitions none rules.initialUtcOffsetSeconds rules.transitions

/-- What a local time is read as. -/
structure LocalMapping where
  utcSeconds : Int64
  resolvedLocalSeconds : Int64
  offsetSeconds : Int64
  shiftedForGap : Bool
  ambiguousFold : Bool
deriving DecidableEq, Repr

def LocalMapping.withFold (mapping : LocalMapping) (fold : Bool) : LocalMapping :=
  { mapping with ambiguousFold := fold }

/-- The gap of one transition, in the first loop of `_mapLocal`. -/
def mapGap (localSeconds : Int64) (transition : UtcOffsetTransition) : Option LocalMapping :=
  if transition.offsetAfterSeconds ≤ transition.offsetBeforeSeconds then none
  else
    let gapStart := transition.atUtcSeconds + transition.offsetBeforeSeconds
    let gapEnd := transition.atUtcSeconds + transition.offsetAfterSeconds
    if localSeconds ≥ gapStart && localSeconds < gapEnd then
      some { utcSeconds := transition.atUtcSeconds, resolvedLocalSeconds := gapEnd,
             offsetSeconds := transition.offsetAfterSeconds, shiftedForGap := true,
             ambiguousFold := false }
    else none

/-- Every offset of the rules once, in the order of its first use. -/
def distinctOffsets (rules : TimezoneRules) : List Int64 :=
  rules.transitions.foldl
    (fun offsets transition =>
      if !offsets.contains transition.offsetAfterSeconds then
        offsets ++ [transition.offsetAfterSeconds]
      else offsets)
    [rules.initialUtcOffsetSeconds]

/-- One offset in the last loop of `_mapLocal`: the earliest mapping and the number of
mappings so far. -/
def tryOffset (rules : TimezoneRules) (localSeconds : Int64)
    (found : Option LocalMapping × Int64) (offset : Int64) : Option LocalMapping × Int64 :=
  let inverseOffset := -offset
  if !canAdd localSeconds inverseOffset then found
  else
    let candidateUtc := localSeconds + inverseOffset
    if offsetAtUtc rules candidateUtc != offset then found
    else if found.1.all (candidateUtc < ·.utcSeconds) then
      (some { utcSeconds := candidateUtc, resolvedLocalSeconds := localSeconds,
              offsetSeconds := offset, shiftedForGap := false, ambiguousFold := false },
        found.2 + 1)
    else (found.1, found.2 + 1)

/-- A local time in a gap is shifted to its end; any other is read as the earliest instant that
shows it. -/
def mapLocal (rules : TimezoneRules) (localSeconds : Int64) : Option LocalMapping :=
  match rules.transitions.findSome? (mapGap localSeconds) with
  | some mapping => some mapping
  | none =>
    let (earliest, validMappingCount) :=
      (distinctOffsets rules).foldl (tryOffset rules localSeconds) (none, 0)
    earliest.map (·.withFold (validMappingCount > 1))

/-- The body of the search loop for one date; `none` is `continue`. -/
def resolveDate (schedule : WeeklyOccurrenceSchedule) (rules : TimezoneRules)
    (afterUtcSeconds candidateDay : Int64) : Option ResolvedOccurrence :=
  if schedule.isoWeekdayMask &&& (1 <<< weekdayIndexFromDays candidateDay) == 0 then none
  else
    let secondsInRequestedDay := schedule.localHour * 60 * 60 + schedule.localMinute * 60
    match startOfDaySeconds candidateDay with
    | none => some { status := .outOfRange }
    | some dayStart =>
      if dayStart > kInt64Max - secondsInRequestedDay then some { status := .outOfRange }
      else
        match mapLocal rules (dayStart + secondsInRequestedDay) with
        | none => none
        | some mapping =>
          if mapping.utcSeconds ≤ afterUtcSeconds then none
          else
            let resolvedDay := floorDiv mapping.resolvedLocalSeconds secondsPerDay
            if mapping.shiftedForGap && resolvedDay != candidateDay then none
            else
              let secondsInDay := mapping.resolvedLocalSeconds - resolvedDay * secondsPerDay
              match civilFromDays candidateDay with
              | none => some { status := .outOfRange }
              | some localDate =>
                some { status := .resolved
                       scheduledUtcSeconds := mapping.utcSeconds
                       localDate := localDate
                       resolvedLocalHour := secondsInDay / (60 * 60)
                       resolvedLocalMinute := modulo (secondsInDay / 60) 60
                       utcOffsetSeconds := mapping.offsetSeconds
                       shiftedForGap := mapping.shiftedForGap
                       ambiguousFold := mapping.ambiguousFold }

def resolveNextOccurrence (schedule : WeeklyOccurrenceSchedule) (rules : TimezoneRules)
    (afterUtcSeconds : Int64) : ResolvedOccurrence :=
  if schedule.localHour > 23 || schedule.localMinute > 59 || schedule.isoWeekdayMask == 0 ||
      schedule.isoWeekdayMask &&& ~~~allIsoWeekdays != 0 then
    { status := .invalidSchedule }
  else if schedule.timezoneName.isEmpty || schedule.timezoneRulesVersion.isEmpty ||
      rules.name.isEmpty || rules.version.isEmpty || schedule.timezoneName != rules.name ||
      schedule.timezoneRulesVersion != rules.version || !hasValidTransitionChain rules then
    { status := .invalidRules }
  else if afterUtcSeconds == kInt64Max then { status := .outOfRange }
  else
    let anchorOffset := offsetAtUtc rules afterUtcSeconds
    if (anchorOffset > 0 && afterUtcSeconds > kInt64Max - anchorOffset) ||
        (anchorOffset < 0 && afterUtcSeconds < kInt64Min - anchorOffset) then
      { status := .outOfRange }
    else
      let anchorDay := floorDiv (afterUtcSeconds + anchorOffset) secondsPerDay
      ((List.range 15).findSome? fun dayDelta =>
        resolveDate schedule rules afterUtcSeconds (anchorDay + Int64.ofNat dayDelta)).getD
        { status := .noOccurrence }

end DawnDock.App
