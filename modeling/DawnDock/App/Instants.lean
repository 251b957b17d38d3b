import DawnDock.App.Values
import DawnDock.Library.Calendar

/-!
Instants as calendar fields in UTC, and the texts of the protocol for them.
-/

namespace DawnDock.App

namespace DateTime

/-- Days from the epoch. -/
def dayNumber (instant : DateTime) : Int := instant.microsecondsSinceEpoch / 86400000000

def date (instant : DateTime) : Calendar.Date := Calendar.Date.ofDayNumber instant.dayNumber

/-- Microseconds from the start of the day. -/
def timeOfDay (instant : DateTime) : Int := instant.microsecondsSinceEpoch % 86400000000

def hour (instant : DateTime) : Int := instant.timeOfDay / 3600000000
def minute (instant : DateTime) : Int := instant.timeOfDay / 60000000 % 60
def second (instant : DateTime) : Int := instant.timeOfDay / 1000000 % 60
def millisecond (instant : DateTime) : Int := instant.timeOfDay / 1000 % 1000
def microsecond (instant : DateTime) : Int := instant.timeOfDay % 1000

/-- An instant, if there is one so many microseconds from the epoch. -/
def ofMicroseconds (value : Int) : Except DartError DateTime :=
  if lower : -kMaxMicroseconds ≤ value then
    if upper : value ≤ kMaxMicroseconds then
      .ok { microsecondsSinceEpoch := value, isUtc := true, lower, upper }
    else .error .rangeError
  else .error .rangeError

/-- `toString().padLeft(width, '0')` -/
def padded (width : Nat) (value : Int) : DartString :=
  let text := intText value
  List.replicate (width - text.length) 0x30 ++ text

end DateTime

/-- `_formatSentAt` -/
def formatSentAt (sentAt : DateTime) : Except DartError DartString :=
  let utc := sentAt.toUtc
  if utc.millisecond ≠ 0 ∨ utc.microsecond ≠ 0 then
    .error (.exchangeReject "invalid_sent_at" "envelope timestamps carry second precision only")
  else
    .ok (DateTime.padded 4 utc.date.year ++ [0x2d] ++ DateTime.padded 2 utc.date.month ++ [0x2d] ++
      DateTime.padded 2 utc.date.day ++ [0x54] ++ DateTime.padded 2 utc.hour ++ [0x3a] ++
      DateTime.padded 2 utc.minute ++ [0x3a] ++ DateTime.padded 2 utc.second ++ [0x5a])

/-- `DateTime.parse` of a text that `validUtcInstant` accepts. -/
def parseUtcInstant (value : DartString) : Except DartError DateTime :=
  if !validUtcInstant value then .error (.formatException "Invalid date format")
  else
    let year : Int := parseDigits (substring value 0 4)
    let month : Int := parseDigits (substring value 5 7)
    let day : Int := parseDigits (substring value 8 10)
    let hour : Int := parseDigits (substring value 11 13)
    let minute : Int := parseDigits (substring value 14 16)
    let second : Int := parseDigits (substring value 17 19)
    let days := Calendar.daysBeforeYear year + Calendar.daysBeforeMonth year month + (day - 1) -
      719162
    DateTime.ofMicroseconds ((((days * 24 + hour) * 60 + minute) * 60 + second) * 1000000)

end DawnDock.App
