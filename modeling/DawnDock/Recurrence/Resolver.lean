import DawnDock.AlarmEngine

/-!
The recurrence resolver (`recurrence_resolver.cpp`): the first instant after an
anchor at which a weekly alarm rings, under a supplied chain of UTC-offset
transitions.

Instants and days are 64-bit, offsets 32-bit, and the civil-date arithmetic of an
era is unsigned 32-bit, as in the source.
-/

namespace DawnDock

/-- The days of the week, from Monday. -/
inductive IsoWeekday where
  | monday | tuesday | wednesday | thursday | friday | saturday | sunday
deriving DecidableEq, Repr

def IsoWeekday.toUInt8 : IsoWeekday → UInt8
  | monday => 0
  | tuesday => 1
  | wednesday => 2
  | thursday => 3
  | friday => 4
  | saturday => 5
  | sunday => 6

/-- The bit of a day in a mask. -/
def weekdayBit (weekday : IsoWeekday) : UInt8 := 1 <<< weekday.toUInt8

structure CivilDate where
  year : Int32 := 0
  month : UInt32 := 0
  day : UInt32 := 0
deriving DecidableEq, Repr

/-- A change of the offset from UTC, at an instant. -/
structure UtcOffsetTransition where
  atUtcSeconds : Int64
  offsetBeforeSeconds : Int32
  offsetAfterSeconds : Int32
deriving DecidableEq, Repr

/-- A zone as the offset it starts from and the transitions after it. -/
structure TimezoneRules where
  name : Text
  version : Text
  initialUtcOffsetSeconds : Int32
  transitions : List UtcOffsetTransition
deriving DecidableEq, Repr

/-- A weekly alarm on the clock of its zone. -/
structure WeeklyAlarmSchedule where
  localHour : UInt8
  localMinute : UInt8
  isoWeekdayMask : UInt8
  timezoneName : Text
  timezoneRulesVersion : Text
deriving DecidableEq, Repr

inductive OccurrenceResolutionStatus where
  | resolved | noOccurrence | invalidSchedule | invalidRules | outOfRange
deriving DecidableEq, Repr

/-- The answer; a failure leaves every field but the status at its default. -/
structure ResolvedOccurrence where
  status : OccurrenceResolutionStatus := .noOccurrence
  scheduledUtcSeconds : Int64 := 0
  localDate : CivilDate := {}
  resolvedLocalHour : UInt8 := 0
  resolvedLocalMinute : UInt8 := 0
  utcOffsetSeconds : Int32 := 0
  shiftedForGap : Bool := false
  ambiguousFold : Bool := false
deriving DecidableEq, Repr

def kSecondsPerDay : Int64 := 24 * 60 * 60
def kAllIsoWeekdays : UInt8 := 0x7f

def validUtcOffset (offset : Int32) : Bool :=
  offset.toInt64 ≥ -kSecondsPerDay && offset.toInt64 ≤ kSecondsPerDay

/-- `can_add`: the sum does not leave 64 bits. -/
def canAdd (value : Int64) (offset : Int32) : Bool :=
  (offset ≥ 0 && value ≤ Int64.maxValue - offset.toInt64) ||
    (offset < 0 && value ≥ Int64.minValue - offset.toInt64)

/-- The Gregorian date of a day since 1970, if its year fits 32 bits. -/
def civilFromDays (days : Int64) : Option CivilDate :=
  let days := days + 719468
  let era := (if days ≥ 0 then days else days - 146096) / 146097
  let dayOfEra := (days - era * 146097).toUInt64.toUInt32
  let yearOfEra := (dayOfEra - dayOfEra / 1460 + dayOfEra / 36524 - dayOfEra / 146096) / 365
  let year := yearOfEra.toUInt64.toInt64 + era * 400
  let dayOfYear := dayOfEra - (365 * yearOfEra + yearOfEra / 4 - yearOfEra / 100)
  let monthPrime := (5 * dayOfYear + 2) / 153
  let day := dayOfYear - (153 * monthPrime + 2) / 5 + 1
  let month := if monthPrime < 10 then monthPrime + 3 else monthPrime - 9
  let year := year + (if month ≤ 2 then 1 else 0)
  if year < Int32.minValue.toInt64 || year > Int32.maxValue.toInt64 then none
  else some { year := year.toInt32, month := month, day := day }

/-- The quotient towards minus infinity. -/
def floorDiv (numerator denominator : Int64) : Int64 :=
  let quotient := numerator / denominator
  let remainder := numerator % denominator
  if remainder < 0 then quotient - 1 else quotient

/-- `static_cast<IsoWeekday>`; the index is below 7. -/
def isoWeekdayOfIndex (index : Int64) : IsoWeekday :=
  match index.toNatClampNeg with
  | 0 => .monday
  | 1 => .tuesday
  | 2 => .wednesday
  | 3 => .thursday
  | 4 => .friday
  | 5 => .saturday
  | _ => .sunday

def weekdayFromDays (days : Int64) : IsoWeekday :=
  -- 1970-01-01 was Thursday (ISO weekday index 3)
  let index := (days + 3) % 7
  isoWeekdayOfIndex (if index < 0 then index + 7 else index)

def startOfDaySeconds (day : Int64) : Option Int64 :=
  if day > Int64.maxValue / kSecondsPerDay || day < Int64.minValue / kSecondsPerDay then none
  else some (day * kSecondsPerDay)

/-- The loop of `offset_at_utc`, `offset` holding what the loop has reached. -/
def offsetAtUtcLoop (utcSeconds : Int64) (offset : Int32) : List UtcOffsetTransition → Int32
  | [] => offset
  | transition :: rest =>
    if utcSeconds < transition.atUtcSeconds then offset
    else offsetAtUtcLoop utcSeconds transition.offsetAfterSeconds rest

/-- The offset in force at an instant. -/
def offsetAtUtc (rules : TimezoneRules) (utcSeconds : Int64) : Int32 :=
  offsetAtUtcLoop utcSeconds rules.initialUtcOffsetSeconds rules.transitions

/-- The loop of `has_valid_transition_chain`. -/
def validTransitions (previousTransition : Option Int64) (activeOffset : Int32) :
    List UtcOffsetTransition → Bool
  | [] => true
  | transition :: rest =>
    if previousTransition.any (transition.atUtcSeconds ≤ ·) ||
        transition.offsetBeforeSeconds != activeOffset ||
        !validUtcOffset transition.offsetBeforeSeconds ||
        !validUtcOffset transition.offsetAfterSeconds ||
        !canAdd transition.atUtcSeconds transition.offsetBeforeSeconds ||
        !canAdd transition.atUtcSeconds transition.offsetAfterSeconds ||
        transition.offsetBeforeSeconds == transition.offsetAfterSeconds then false
    else validTransitions (some transition.atUtcSeconds) transition.offsetAfterSeconds rest

/-- Transitions in order, each from the offset that the one before it left. -/
def hasValidTransitionChain (rules : TimezoneRules) : Bool :=
  validUtcOffset rules.initialUtcOffsetSeconds &&
    validTransitions none rules.initialUtcOffsetSeconds rules.transitions

structure LocalMapping where
  utcSeconds : Int64
  resolvedLocalSeconds : Int64
  offsetSeconds : Int32
  shiftedForGap : Bool
  ambiguousFold : Bool
deriving DecidableEq, Repr

/-- The gap of one transition, in the first loop of `map_local`. -/
def mapGap (localSeconds : Int64) (transition : UtcOffsetTransition) : Option LocalMapping :=
  if transition.offsetAfterSeconds ≤ transition.offsetBeforeSeconds then none
  else
    let gapStart := transition.atUtcSeconds + transition.offsetBeforeSeconds.toInt64
    let gapEnd := transition.atUtcSeconds + transition.offsetAfterSeconds.toInt64
    if localSeconds ≥ gapStart && localSeconds < gapEnd then
      some { utcSeconds := transition.atUtcSeconds, resolvedLocalSeconds := gapEnd,
             offsetSeconds := transition.offsetAfterSeconds, shiftedForGap := true,
             ambiguousFold := false }
    else none

def addOffset (offsets : List Int32) (offset : Int32) : List Int32 :=
  if offsets.contains offset then offsets else offsets ++ [offset]

/-- The distinct offsets of the rules, in the order they come into force. -/
def distinctOffsets (rules : TimezoneRules) : List Int32 :=
  rules.transitions.foldl (fun offsets transition => addOffset offsets transition.offsetAfterSeconds)
    (addOffset [] rules.initialUtcOffsetSeconds)

/-- One offset in the last loop of `map_local`: the earliest mapping and the number of
mappings so far. -/
def tryOffset (rules : TimezoneRules) (localSeconds : Int64)
    (found : Option LocalMapping × Nat) (offset : Int32) : Option LocalMapping × Nat :=
  let inverseOffset := -offset
  if !canAdd localSeconds inverseOffset then found
  else
    let candidateUtc := localSeconds + inverseOffset.toInt64
    if offsetAtUtc rules candidateUtc != offset then found
    else if found.1.all (candidateUtc < ·.utcSeconds) then
      (some { utcSeconds := candidateUtc, resolvedLocalSeconds := localSeconds,
              offsetSeconds := offset, shiftedForGap := false, ambiguousFold := false },
        found.2 + 1)
    else (found.1, found.2 + 1)

/-- A local time in a gap is shifted to its end; any other is the earliest instant that shows
it. -/
def mapLocal (rules : TimezoneRules) (localSeconds : Int64) : Option LocalMapping :=
  match rules.transitions.findSome? (mapGap localSeconds) with
  | some mapping => some mapping
  | none =>
    let (earliest, validMappingCount) :=
      (distinctOffsets rules).foldl (tryOffset rules localSeconds) (none, 0)
    earliest.map fun mapping => { mapping with ambiguousFold := validMappingCount > 1 }

/-- The body of the search loop for one date; `none` is `continue`. -/
def resolveDate (schedule : WeeklyAlarmSchedule) (rules : TimezoneRules) (afterUtcSeconds : Int64)
    (candidateDay : Int64) : Option ResolvedOccurrence :=
  if schedule.isoWeekdayMask &&& weekdayBit (weekdayFromDays candidateDay) == 0 then none
  else
    let secondsInRequestedDay :=
      schedule.localHour.toUInt64.toInt64 * 60 * 60 + schedule.localMinute.toUInt64.toInt64 * 60
    match startOfDaySeconds candidateDay with
    | none => some { status := .outOfRange }
    | some dayStart =>
      if dayStart > Int64.maxValue - secondsInRequestedDay then some { status := .outOfRange }
      else
        match mapLocal rules (dayStart + secondsInRequestedDay) with
        | none => none
        | some mapping =>
          if mapping.utcSeconds ≤ afterUtcSeconds then none
          else
            let resolvedDay := floorDiv mapping.resolvedLocalSeconds kSecondsPerDay
            if mapping.shiftedForGap && resolvedDay != candidateDay then none
            else
              let secondsInDay := mapping.resolvedLocalSeconds - resolvedDay * kSecondsPerDay
              match civilFromDays candidateDay with
              | none => some { status := .outOfRange }
              | some localDate =>
                some { status := .resolved
                       scheduledUtcSeconds := mapping.utcSeconds
                       localDate := localDate
                       resolvedLocalHour := (secondsInDay / (60 * 60)).toUInt64.toUInt8
                       resolvedLocalMinute := ((secondsInDay / 60) % 60).toUInt64.toUInt8
                       utcOffsetSeconds := mapping.offsetSeconds
                       shiftedForGap := mapping.shiftedForGap
                       ambiguousFold := mapping.ambiguousFold }

def resolveNextOccurrence (schedule : WeeklyAlarmSchedule) (rules : TimezoneRules)
    (afterUtcSeconds : Int64) : ResolvedOccurrence :=
  if schedule.localHour > 23 || schedule.localMinute > 59 || schedule.isoWeekdayMask == 0 ||
      schedule.isoWeekdayMask &&& ~~~kAllIsoWeekdays != 0 then
    { status := .invalidSchedule }
  else if schedule.timezoneName.isEmpty || schedule.timezoneRulesVersion.isEmpty ||
      rules.name.isEmpty || rules.version.isEmpty || schedule.timezoneName != rules.name ||
      schedule.timezoneRulesVersion != rules.version || !hasValidTransitionChain rules then
    { status := .invalidRules }
  else if afterUtcSeconds == Int64.maxValue then { status := .outOfRange }
  else
    let anchorOffset := (offsetAtUtc rules afterUtcSeconds).toInt64
    if (anchorOffset > 0 && afterUtcSeconds > Int64.maxValue - anchorOffset) ||
        (anchorOffset < 0 && afterUtcSeconds < Int64.minValue - anchorOffset) then
      { status := .outOfRange }
    else
      let anchorDay := floorDiv (afterUtcSeconds + anchorOffset) kSecondsPerDay
      ((List.range 15).findSome? fun dayDelta =>
        resolveDate schedule rules afterUtcSeconds (anchorDay + Int64.ofNat dayDelta)).getD
        { status := .noOccurrence }

/-! ### A rule set of the host tests -/

/-- Clocks in New York go from 02:00 to 03:00 on 2026-03-08. -/
def newYorkRules : TimezoneRules where
  name := [0x4e, 0x59]
  version := [0x61]
  initialUtcOffsetSeconds := -18000
  transitions := [{ atUtcSeconds := 1772953200, offsetBeforeSeconds := -18000,
                    offsetAfterSeconds := -14400 }]

/-- 02:30 on Sundays. -/
def newYorkAlarm : WeeklyAlarmSchedule where
  localHour := 2
  localMinute := 30
  isoWeekdayMask := weekdayBit .sunday
  timezoneName := [0x4e, 0x59]
  timezoneRulesVersion := [0x61]

end DawnDock
