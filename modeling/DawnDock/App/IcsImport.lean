import DawnDock.App.AlarmDraft
import DawnDock.App.IcsEvents

/-!
The calendar importer (`importIcsSuggestions` of `ics_import.dart`): what becomes of each
event of a file.

A helper that takes `onNotice` returns its notes in order next to its result. Weekdays go
from 1 on Monday to 7, as in a draft.
-/

namespace DawnDock.App.Ics

/-- The stable codes of the notices. -/
inductive NoticeCode where
  | floatingLocalTime | utcWallTime | allDayDefaultTime | intervalNotRepresentable
  | boundedRecurrenceUnsupported | singleOccurrenceWeekly | labelDefaulted | labelTruncated
  | missingUid | duplicateUid | idCollision | oversizedUid | invalidDtstart | malformedEvent
  | capacityTruncated | unsupportedRecurrence | missingTzid | utcTimezoneId | excludedDates
  | unsupportedRecurrenceException | recurrenceOverride | embeddedAlarm | cancelledEvent
deriving DecidableEq, Repr

/-- The constants `kIcsNotice…`. -/
def NoticeCode.text : NoticeCode → String
  | floatingLocalTime => "floating-local-time"
  | utcWallTime => "utc-wall-time"
  | allDayDefaultTime => "all-day-default-time"
  | intervalNotRepresentable => "interval-not-representable"
  | boundedRecurrenceUnsupported => "bounded-recurrence-unsupported"
  | singleOccurrenceWeekly => "single-occurrence-weekly"
  | labelDefaulted => "label-defaulted"
  | labelTruncated => "label-truncated"
  | missingUid => "missing-uid"
  | duplicateUid => "duplicate-uid"
  | idCollision => "id-collision"
  | oversizedUid => "oversized-uid"
  | invalidDtstart => "invalid-dtstart"
  | malformedEvent => "malformed-event"
  | capacityTruncated => "capacity-truncated"
  | unsupportedRecurrence => "unsupported-recurrence"
  | missingTzid => "missing-tzid"
  | utcTimezoneId => "utc-timezone-id"
  | excludedDates => "excluded-dates"
  | unsupportedRecurrenceException => "unsupported-recurrence-exception"
  | recurrenceOverride => "recurrence-override"
  | embeddedAlarm => "embedded-alarm"
  | cancelledEvent => "cancelled-event"

structure ImportNotice where
  code : NoticeCode
  eventNumber : Option Nat
  detail : Option DartString := none
deriving DecidableEq, Repr

/-- A call of `onNotice`. -/
structure Note where
  code : NoticeCode
  detail : Option DartString := none
deriving DecidableEq, Repr

def Note.about (eventNumber : Nat) (note : Note) : ImportNotice :=
  { code := note.code, eventNumber := some eventNumber, detail := note.detail }

/-- A note with a fixed detail. -/
def noteWith (code : NoticeCode) (detail : String) : Note :=
  { code, detail := some (utf16 detail) }

inductive ImportException where
  | inputTooLarge | notCalendar
  | tooManyEvents (blocks : Nat)
deriving DecidableEq, Repr

def ImportException.message : ImportException → DartString
  | inputTooLarge => utf16 "input exceeds the 1 MiB import ceiling"
  | notCalendar => utf16 "missing BEGIN:VCALENDAR"
  | tooManyEvents blocks =>
    utf16 "more than 256 VEVENT blocks (" ++ intText blocks ++ utf16 ")"

def kIcsImportMaxInputBytes : Nat := 1024 * 1024
def kIcsImportMaxEvents : Nat := 256
def kIcsImportDefaultTimezone : DartString := utf16 "Etc/UTC"
def kIcsDraftEnabled : Bool := true
def kIcsDraftSnoozeMinutes : Int64 := 5
def kIcsDraftVolume : Int64 := 80
def kIcsDraftSound : DartString := utf16 "chime"
def kIcsDefaultLabel : DartString := utf16 "Calendar alarm"

/-! ### DTSTART -/

structure StartInfo where
  hour : Nat
  minute : Nat
  timezone : DartString
  weekdayIso : Nat
deriving DecidableEq, Repr

/-- The groups of `_dateTimePattern`. -/
structure DateTimeMatch where
  year : Nat
  month : Nat
  day : Nat
  hour : Nat
  minute : Nat
  seconds : Nat
  zulu : Bool
deriving DecidableEq, Repr

/-- `^(\d{4})(\d{2})(\d{2})[Tt](\d{2})(\d{2})(\d{2})([Zz])?$` -/
def dateTimeMatch (value : DartString) : Option DateTimeMatch :=
  let zone := value.drop 15
  if matchesEach [digit, digit, digit, digit, digit, digit, digit, digit,
        fun unit => unit == 0x54 || unit == 0x74, digit, digit, digit, digit, digit, digit]
      (value.take 15) && (zone == [] || zone == [0x5a] || zone == [0x7a]) then
    some { year := parseDigits (substring value 0 4), month := parseDigits (substring value 4 6)
           day := parseDigits (substring value 6 8), hour := parseDigits (substring value 9 11)
           minute := parseDigits (substring value 11 13)
           seconds := parseDigits (substring value 13 15), zulu := zone != [] }
  else none

/-- `^(\d{4})(\d{2})(\d{2})$` -/
def dateMatch (value : DartString) : Option (Nat × Nat × Nat) :=
  if matchesEach [digit, digit, digit, digit, digit, digit, digit, digit] value then
    some (parseDigits (substring value 0 4), parseDigits (substring value 4 6),
      parseDigits (substring value 6 8))
  else none

/-- `_validGregorian` -/
def validGregorian (year month day : Nat) : Bool :=
  if year < 1 || month < 1 || month > 12 || day < 1 then false
  else
    let length := [31, 28, 31, 30, 31, 30, 31, 31, 30, 31, 30, 31].getD (month - 1) 0
    let length :=
      if month = 2 ∧ ((year % 4 = 0 ∧ year % 100 ≠ 0) ∨ year % 400 = 0) then 29 else length
    day ≤ length

/-- `_isoWeekday`; the year is at least 1. -/
def isoWeekday (year month day : Nat) : Nat :=
  let y := if month < 3 then year - 1 else year
  let dow := (y + y / 4 - y / 100 + y / 400 +
    [0, 3, 2, 5, 0, 3, 5, 1, 4, 6, 2, 4].getD (month - 1) 0 + day) % 7
  if dow = 0 then 7 else dow

section Case

variable (toUpperCase : DartString → DartString)

def isUtcDesignator (tzid : DartString) : Bool :=
  [utf16 "UTC", utf16 "Z", utf16 "GMT", utf16 "ETC/UTC"].contains (toUpperCase (trim tzid))

/-- The zone of a wall time, by its `TZID` and its `Z`. -/
def zoneOfTime (tzidParam : Option DartString) (zulu : Bool) : List Note × Option DartString :=
  match tzidParam with
  | none =>
    if zulu then ([{ code := .utcWallTime }], some kIcsImportDefaultTimezone)
    else ([{ code := .floatingLocalTime }], some kIcsImportDefaultTimezone)
  | some tzid =>
    if zulu && !isUtcDesignator toUpperCase tzid then ([{ code := .invalidDtstart }], none)
    else if zulu || isUtcDesignator toUpperCase tzid then
      ({ code := .utcWallTime } :: (if zulu then [] else [{ code := .utcTimezoneId }]),
        some kIcsImportDefaultTimezone)
    else if (trim tzid).isEmpty then ([{ code := .missingTzid }], none)
    else if utf8Length (trim tzid) < 3 || utf8Length (trim tzid) > kMaxTimezoneBytes then
      ([noteWith .invalidDtstart "TZID violates field bounds"], none)
    else ([], some (trim tzid))

/-- The check behind both forms of `DTSTART`. -/
def startInfo (notes : List Note) (timezone : DartString) (year month day hour minute : Nat) :
    List Note × Option StartInfo :=
  if !validGregorian year month day || hour > 23 || minute > 59 then
    (notes ++ [noteWith .invalidDtstart "impossible calendar value"], none)
  else
    (notes, some { hour, minute, timezone, weekdayIso := isoWeekday year month day })

/-- `_parseDtstart` -/
def parseDtstart (dtstart : Option Property) : List Note × Option StartInfo :=
  match dtstart with
  | none => ([noteWith .invalidDtstart "no DTSTART"], none)
  | some prop =>
    let value := trim prop.rawValue
    let tzidParam := prop.param (utf16 "TZID")
    let isDateValue := (prop.param (utf16 "VALUE")).any (toUpperCase · == utf16 "DATE")
    match dateTimeMatch value, dateMatch value, isDateValue with
    | some time, _, false =>
      if time.seconds > 59 then
        ([noteWith .invalidDtstart "seconds outside a minute"], none)
      else if time.seconds ≠ 0 then
        ([noteWith .invalidDtstart "nonzero seconds cannot be represented"], none)
      else
        match zoneOfTime toUpperCase tzidParam time.zulu with
        | (notes, none) => (notes, none)
        | (notes, some timezone) =>
          startInfo notes timezone time.year time.month time.day time.hour time.minute
    | none, some (year, month, day), _ | _, some (year, month, day), true =>
      if tzidParam.isSome then ([{ code := .invalidDtstart }], none)
      else startInfo [{ code := .allDayDefaultTime }] kIcsImportDefaultTimezone year month day 0 0
    | _, _, _ => ([noteWith .invalidDtstart "unrecognized DTSTART value"], none)

/-! ### RRULE -/

/-- `_bydayToIso` -/
def bydayToIso : List (DartString × Int64) :=
  [(utf16 "MO", 1), (utf16 "TU", 2), (utf16 "WE", 3), (utf16 "TH", 4), (utf16 "FR", 5),
    (utf16 "SA", 6), (utf16 "SU", 7)]

/-- `_isIcsInstant` -/
def isIcsInstant (value : DartString) : Bool :=
  (dateTimeMatch (trim value)).isSome || (dateMatch (trim value)).isSome

/-- The variables of the loop over the parts of a rule. -/
structure RruleState where
  freq : Option DartString := none
  interval : Int := 1
  bounded : Bool := false
  byDays : Finset Int64 := ∅
  bydaySeen : Bool := false
  seenKeys : List DartString := []
deriving DecidableEq

def unsupported (detail : String) : Note := noteWith .unsupportedRecurrence detail

/-- A detail that quotes what the file has. -/
def quoting (before : String) (quoted : DartString) (behind : String) : Note :=
  { code := .unsupportedRecurrence, detail := some (utf16 before ++ quoted ++ utf16 behind) }

/-- The weekday of a `BYDAY` token; ordinals have none. -/
def tokenDay (token : DartString) : Option Int64 :=
  (bydayToIso.find? fun day => day.1 == toUpperCase (trim token)).map Prod.snd

/-- The loop over the tokens of `BYDAY`. -/
def addTokens (byDays : Finset Int64) : List DartString → Except Note (Finset Int64)
  | [] => .ok byDays
  | token :: rest =>
    match tokenDay toUpperCase token with
    | none => .error (quoting "unsupported BYDAY token \"" token "\"")
    | some iso => addTokens (insert iso byDays) rest

/-- The `switch` over the key of a part. -/
def readPart (state : RruleState) (key value : DartString) : Except Note RruleState :=
  if key = utf16 "FREQ" then .ok { state with freq := some (toUpperCase value) }
  else if key = utf16 "INTERVAL" then
    match intTryParse value with
    | none => .error (unsupported "INTERVAL is not a positive integer")
    | some parsed =>
      if parsed < 1 then .error (unsupported "INTERVAL is not a positive integer")
      else .ok { state with interval := parsed }
  else if key = utf16 "COUNT" then
    match intTryParse value with
    | none => .error (unsupported "COUNT is not an integer")
    | some _ => .ok { state with bounded := true }
  else if key = utf16 "UNTIL" then
    if !isIcsInstant value then .error (unsupported "UNTIL is not an ICS instant")
    else .ok { state with bounded := true }
  else if key = utf16 "BYDAY" then
    if value.isEmpty then .error (unsupported "empty BYDAY")
    else
      match addTokens toUpperCase state.byDays (value.splitOn 0x2c) with
      | .error note => .error note
      | .ok byDays => .ok { state with byDays, bydaySeen := true }
  else .error (quoting "unsupported RRULE part \"" key "\"")

def readRrulePart (state : RruleState) (part : DartString) : Except Note RruleState :=
  if part.isEmpty then .error (unsupported "empty RRULE segment")
  else
    match cutAt 0x3d part with
    | none => .error (unsupported "RRULE part without a value")
    | some (name, value) =>
      if name.isEmpty then .error (unsupported "RRULE part without a value")
      else
        let key := toUpperCase name
        if state.seenKeys.contains key then .error (quoting "duplicate RRULE key \"" key "\"")
        else readPart toUpperCase { state with seenKeys := key :: state.seenKeys } key value

/-- What is made of a rule whose parts are all read. -/
def ruleDays (state : RruleState) (eventWeekdayIso : Int64) : List Note × Option (Finset Int64) :=
  match state.freq with
  | none => ([unsupported "RRULE has no FREQ"], none)
  | some freq =>
    if state.interval ≠ 1 then
      ([{ code := .intervalNotRepresentable
          detail := some (utf16 "INTERVAL=" ++ intText state.interval) }], none)
    else if state.bounded then ([{ code := .boundedRecurrenceUnsupported }], none)
    else if freq = utf16 "DAILY" then
      ([], some (if state.bydaySeen then state.byDays else {1, 2, 3, 4, 5, 6, 7}))
    else if freq = utf16 "WEEKLY" then
      if state.bydaySeen then ([], some state.byDays)
      else ([{ code := .singleOccurrenceWeekly }], some {eventWeekdayIso})
    else
      ([quoting "FREQ=" freq " needs calendar arithmetic a weekday mask cannot represent"], none)

/-- `_daysFromRrule` -/
def daysFromRrule (rruleValue : Option DartString) (eventWeekdayIso : Int64) :
    List Note × Option (Finset Int64) :=
  match rruleValue with
  | none => ([{ code := .singleOccurrenceWeekly }], some {eventWeekdayIso})
  | some rule =>
    match (rule.splitOn 0x3b).foldlM (readRrulePart toUpperCase) {} with
    | .error note => ([note], none)
    | .ok state => ruleDays state eventWeekdayIso

/-! ### One event -/

/-- What the loops in front of the events have collected. -/
structure UidGroups where
  overriddenUids : List DartString
  cancelledUids : List DartString
  uidCounts : DartString → Nat

/-- The UID of a block under which it is grouped. -/
def EventBlock.groupUid (block : EventBlock) : Option DartString :=
  block.uid.filter fun uid => !uid.isEmpty

def groupUids (blocks : List EventBlock) : UidGroups where
  overriddenUids := (blocks.filter (·.hasRecurrenceId)).filterMap (·.groupUid)
  cancelledUids := (blocks.filter (·.isCancelled)).filterMap (·.groupUid)
  uidCounts := fun uid => (blocks.filterMap (·.groupUid)).count uid

/-- The checks in front of an event's own properties. -/
def dropReason (groups : UidGroups) (block : EventBlock) : Option NoticeCode :=
  if block.hasRecurrenceId || block.uid.any groups.overriddenUids.contains then
    some .recurrenceOverride
  else if block.isCancelled || block.uid.any groups.cancelledUids.contains then
    some .cancelledEvent
  else if block.uid.any fun uid => groups.uidCounts uid > 1 then some .duplicateUid
  else if block.hasEmbeddedAlarm then some .embeddedAlarm
  else if block.malformed then some .malformedEvent
  else if block.hasExcludedDates then some .excludedDates
  else if block.hasUnsupportedRecurrenceException then some .unsupportedRecurrenceException
  else
    match block.uid with
    | none => some .missingUid
    | some uid =>
      if uid.isEmpty then some .missingUid
      else if utf8Length uid > kMaxSourceEventIdBytes then some .oversizedUid
      else none

/-- The label of an event with the notes on it. -/
def labelFor (summary : Option DartString) : List Note × DartString :=
  let sanitized := sanitizeLabel (summary.getD [])
  let label := if sanitized.isEmpty then kIcsDefaultLabel else sanitized
  let capped := truncateUtf8 label kMaxAlarmLabelBytes
  ((if sanitized.isEmpty then [{ code := .labelDefaulted }] else []) ++
    (if capped ≠ label then [{ code := .labelTruncated }] else []), capped)

/-- The arguments of the draft's constructor. -/
def fieldsFor (id label : DartString) (start : StartInfo) (days : Finset Int64)
    (uid : DartString) : AlarmFields where
  id := id
  label := label
  enabled := kIcsDraftEnabled
  localHour := Int64.ofNat start.hour
  localMinute := Int64.ofNat start.minute
  days := days
  timezone := start.timezone
  snoozeMinutes := kIcsDraftSnoozeMinutes
  volume := kIcsDraftVolume
  sound := kIcsDraftSound
  source := .ics
  provenance := some { sourceEventId := uid, originLabel := utf16 "ics" }

/-- `AlarmDraft(...)`, or `none` behind `on ArgumentError`. -/
def constructDraft (fields : AlarmFields) : Option AlarmDraft :=
  if valid : fields.validate = .ok () then some { toAlarmFields := fields, valid } else none

/-- The id of an event and the note of a collision. -/
def chooseId (uid : DartString) (usedIds : List DartString) : List Note × DartString :=
  let hex := fnv1a64Hex uid
  let suffix := nextSuffix hex usedIds 1 usedIds.length
  (if suffix > 1 then [{ code := .idCollision }] else [], idFor hex suffix)

/-- Everything behind the checks on the block: the notes, the draft and the ids used. -/
def buildDraft (block : EventBlock) (usedIds : List DartString) :
    List Note × Option AlarmDraft × List DartString :=
  match parseDtstart toUpperCase block.dtstart with
  | (startNotes, none) => (startNotes, none, usedIds)
  | (startNotes, some start) =>
    match daysFromRrule toUpperCase block.rruleValues.head? (Int64.ofNat start.weekdayIso) with
    | (dayNotes, none) => (startNotes ++ dayNotes, none, usedIds)
    | (dayNotes, some days) =>
      let uid := block.uid.getD []
      let (labelNotes, label) := labelFor block.summary
      let (idNotes, id) := chooseId uid usedIds
      let notes := startNotes ++ dayNotes ++ labelNotes ++ idNotes
      match constructDraft (fieldsFor id label start days uid) with
      | none => (notes ++ [noteWith .invalidDtstart "draft bounds violated"], none, id :: usedIds)
      | some draft => (notes, some draft, id :: usedIds)

/-- `_draftForEvent` -/
def draftForEvent (groups : UidGroups) (block : EventBlock) (usedIds : List DartString) :
    List Note × Option AlarmDraft × List DartString :=
  match dropReason groups block with
  | some code => ([{ code }], none, usedIds)
  | none => buildDraft toUpperCase block usedIds

/-! ### The import -/

structure ImportState where
  notices : List ImportNotice := []
  suggestions : List AlarmDraft := []
  usedIds : List DartString := []
  droppedByCapacity : List Nat := []

/-- The loop over the blocks from `eventNumber` on. -/
def importEvents (groups : UidGroups) (state : ImportState) (eventNumber : Nat) :
    List EventBlock → ImportState
  | [] => state
  | block :: rest =>
    let (notes, draft, usedIds) := draftForEvent toUpperCase groups block state.usedIds
    let state := { state with
      notices := state.notices ++ notes.map (Note.about eventNumber), usedIds }
    let state := match draft with
      | none => state
      | some draft =>
        if state.suggestions.length ≥ kMaxStoredAlarms then
          { state with droppedByCapacity := state.droppedByCapacity ++ [eventNumber] }
        else { state with suggestions := state.suggestions ++ [draft] }
    importEvents groups state (eventNumber + 1) rest

structure ImportResult where
  suggestions : List AlarmDraft
  notices : List ImportNotice

/-- The notice of the events beyond the cap. -/
def capacityNotice (droppedByCapacity : List Nat) : List ImportNotice :=
  match droppedByCapacity with
  | [] => []
  | first :: _ =>
    [{ code := .capacityTruncated, eventNumber := some first
       detail := some (intText droppedByCapacity.length ++ utf16 " event(s) beyond the " ++
         intText kMaxStoredAlarms ++ utf16 "-suggestion cap were not suggested") }]

def importBlocks (blocks : List EventBlock) : ImportResult :=
  let state := importEvents toUpperCase (groupUids blocks) {} 1 blocks
  { suggestions := state.suggestions
    notices := state.notices ++ capacityNotice state.droppedByCapacity }

/-- `importIcsSuggestions` -/
def importIcsSuggestions (text : DartString) : Except ImportException ImportResult :=
  if utf8Length text > kIcsImportMaxInputBytes then .error .inputTooLarge
  else
    let lines := unfold text
    if !lines.any fun line =>
        (propertyOf toUpperCase line).any (isMark toUpperCase "BEGIN" "VCALENDAR") then
      .error .notCalendar
    else
      let blocks := splitVEvents toUpperCase lines
      if blocks.length > kIcsImportMaxEvents then .error (.tooManyEvents blocks.length)
      else .ok (importBlocks toUpperCase blocks)

end Case

end DawnDock.App.Ics
