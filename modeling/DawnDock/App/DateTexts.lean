import DawnDock.App.Instants

/-!
ISO 8601 texts of instants: `toIso8601String` and `DateTime.tryParse`.

The pattern of `tryParse` is matched by hand, each part giving its matches in the order a
backtracking matcher tries them.
-/

namespace DawnDock.App

namespace DateTime

/-! ### Writing -/

/-- `_fourDigits` and, beyond four digits, `_sixDigits`. -/
def isoYear (year : Int) : DartString :=
  if -9999 ≤ year ∧ year ≤ 9999 then
    (if year < 0 then [0x2d] else []) ++ padded 4 (year.natAbs : Int)
  else (if year < 0 then [0x2d] else [0x2b]) ++ padded 6 (year.natAbs : Int)

def toIso8601String (instant : DateTime) : DartString :=
  isoYear instant.date.year ++ [0x2d] ++ padded 2 instant.date.month ++ [0x2d] ++
    padded 2 instant.date.day ++ [0x54] ++ padded 2 instant.hour ++ [0x3a] ++
    padded 2 instant.minute ++ [0x3a] ++ padded 2 instant.second ++ [0x2e] ++
    padded 3 instant.millisecond ++
    (if instant.microsecond = 0 then [] else padded 3 instant.microsecond) ++
    (if instant.isUtc then [0x5a] else [])

/-! ### Matching -/

/-- A part of the pattern: what it can match, and the text behind, the preferred match
first. -/
abbrev Matcher (α : Type) := DartString → List (α × DartString)

namespace Matcher

variable {α β : Type}

/-- A unit of a class. -/
def unit (allowed : UInt16 → Bool) : Matcher UInt16
  | [] => []
  | u :: rest => if allowed u then [(u, rest)] else []

/-- `\d` as often as the preferred one of the counts that the text has. -/
def digits (counts : List Nat) : Matcher DartString := fun text =>
  (counts.filter fun count => count ≤ text.length && (text.take count).all digit).map fun count =>
    (text.take count, text.drop count)

/-- `\d+` -/
def someDigits : Matcher DartString := fun text =>
  digits ((List.range text.length).map fun index => text.length - index) text

/-- Greedy `?`. -/
def optional (matcher : Matcher α) : Matcher (Option α) := fun text =>
  (matcher text).map (fun found => (some found.1, found.2)) ++ [(none, text)]

/-- One part and then another. -/
def andThen (first : Matcher α) (second : α → Matcher β) : Matcher β := fun text =>
  (first text).flatMap fun found => second found.1 found.2

def result (value : α) : Matcher α := fun text => [(value, text)]

/-- `first|second` -/
def either (first second : Matcher α) : Matcher α := fun text => first text ++ second text

end Matcher

open Matcher

/-- What the groups of the pattern hold; the numbers are those of `int.parse`. -/
structure Groups where
  year : Int
  month : Int
  day : Int
  hour : Int := 0
  minute : Int := 0
  second : Int := 0
  fraction : DartString := []
  /-- The minutes to take off, if there is a time zone part. -/
  zone : Option Int := none

/-- `([+-]?\d{4,6})` -/
def yearGroup : Matcher Int :=
  andThen (optional (unit fun u => u == 0x2b || u == 0x2d)) fun sign =>
    andThen (digits [6, 5, 4]) fun year =>
      result (if sign = some 0x2d then -(parseDigits year : Int) else parseDigits year)

/-- `(\d\d)` behind what may stand before it. -/
def twoDigitGroup (separator : Matcher (Option UInt16)) : Matcher Int :=
  andThen separator fun _ => andThen (digits [2]) fun value => result (parseDigits value : Int)

def hyphen : Matcher (Option UInt16) := optional (unit (· == 0x2d))
def colonMark : Matcher (Option UInt16) := optional (unit (· == 0x3a))
def space : Matcher (Option UInt16) := optional (unit (· == 0x20))

/-- `(?:[.,](\d+))?` -/
def fractionGroup : Matcher DartString :=
  andThen (optional (andThen (unit fun u => u == 0x2e || u == 0x2c) fun _ => someDigits))
    fun fraction => result (fraction.getD [])

/-- `( ?[zZ]| ?([-+])(\d\d)(?::?(\d\d))?)?` -/
def zoneGroup : Matcher (Option Int) :=
  optional (either
    (andThen space fun _ => andThen (unit fun u => u == 0x7a || u == 0x5a) fun _ => result 0)
    (andThen space fun _ => andThen (unit fun u => u == 0x2d || u == 0x2b) fun sign =>
      andThen (digits [2]) fun hours =>
        andThen (optional (twoDigitGroup colonMark)) fun minutes =>
          let difference := minutes.getD 0 + 60 * (parseDigits hours : Int)
          result (if sign = 0x2d then -difference else difference)))

/-- The part behind the day. -/
def timeGroup (groups : Groups) : Matcher Groups :=
  andThen (optional
      (andThen (unit fun u => u == 0x20 || u == 0x54) fun _ =>
        andThen (digits [2]) fun hour =>
          andThen (optional (andThen (twoDigitGroup colonMark) fun minute =>
              andThen (optional (andThen (twoDigitGroup colonMark) fun second =>
                  andThen fractionGroup fun fraction => result (second, fraction)))
                fun seconds => result (minute, seconds)))
            fun minutes => andThen zoneGroup fun zone =>
              let seconds := minutes.bind Prod.snd
              result { groups with
                hour := parseDigits hour
                minute := (minutes.map Prod.fst).getD 0
                second := (seconds.map Prod.fst).getD 0
                fraction := (seconds.map Prod.snd).getD []
                zone }))
    fun time => result (time.getD groups)

/-- `_parseFormat` -/
def parseFormat : Matcher Groups :=
  andThen yearGroup fun year => andThen (twoDigitGroup hyphen) fun month =>
    andThen (twoDigitGroup hyphen) fun day => timeGroup { year, month, day }

/-! ### Reading -/

/-- `parseMilliAndMicroseconds`: the first six digits. -/
def parseMicroseconds (fraction : DartString) : Int :=
  (parseDigits ((fraction ++ List.replicate 6 0x30).take 6) : Int)

/-- Microseconds of a wall time; months and the parts behind them may be out of range. -/
def wallMicroseconds (groups : Groups) : Int :=
  let month := groups.month - 1
  let year := groups.year + month / 12
  let days := Calendar.daysBeforeYear year + Calendar.daysBeforeMonth year (month % 12 + 1) +
    (groups.day - 1) - 719162
  let minute := groups.minute - groups.zone.getD 0
  (((days * 24 + groups.hour) * 60 + minute) * 60 + groups.second) * 1000000 +
    parseMicroseconds groups.fraction

/-- `_finishParse`; `localToUtc` is the time zone of the platform. -/
def finishParse (localToUtc : Int → Int) (groups : Groups) : Option DateTime :=
  let wall := wallMicroseconds groups
  let value := if groups.zone.isSome then wall else localToUtc wall
  if groups.zone.isNone && (wall < -kMaxMicroseconds - 86400000000 ||
      wall > kMaxMicroseconds + 86400000000) then none
  else if lower : -kMaxMicroseconds ≤ value then
    if upper : value ≤ kMaxMicroseconds then
      some { microsecondsSinceEpoch := value, isUtc := groups.zone.isSome, lower, upper }
    else none
  else none

/-- The first match of the whole text decides. -/
def tryParse (localToUtc : Int → Int) (text : DartString) : Option DateTime :=
  match (parseFormat text).find? fun found => found.2.isEmpty with
  | some found => finishParse localToUtc found.1
  | none => none

example : (tryParse id (utf16 "2026-03-08T06:30:00.250Z")).map microsecondsSinceEpoch =
    some 1772951400250000 := by
  decide +kernel

example : (tryParse id (utf16 "20260308 0630+01:30")).map microsecondsSinceEpoch =
    some 1772946000000000 := by
  decide +kernel

end DateTime

end DawnDock.App
