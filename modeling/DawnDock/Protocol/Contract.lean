import DawnDock.Library.Json
import DawnDock.Library.Utf16
import Mathlib.Algebra.Ring.Int.Defs
import Mathlib.Data.Finset.Insert
import Mathlib.Data.List.Dedup
import Mathlib.Data.List.Sort

/-!
The contract gate of the companion app (`protocol_contract.dart`), on decoded JSON.

A Dart string is a list of UTF-16 code units, an `int` has 64 bits, and a decoded map is
the list of its entries. Doubles are of any type that has what the source asks of them;
`none` is the `StateError` of a double that is not finite.
-/

namespace DawnDock.App

open Utf16 (runes ofRune)

abbrev DartString := List UInt16

/-- A string constant. -/
def utf16 (text : String) : DartString := Utf16.encode text.toList

/-- What is asked of a `double`. -/
class Double (δ : Type) where
  isNaN : δ → Bool
  isInfinite : δ → Bool
  /-- The integer a value equals that `roundToDouble` keeps. -/
  integer : δ → Option Int
  toText : δ → DartString

inductive Number (δ : Type) where
  | int (value : Int64)
  | double (value : δ)

/-- A decoded JSON value. -/
abbrev Value (δ : Type) := Json DartString (Number δ)

/-- A decoded object, by its entries. -/
abbrev Entries (δ : Type) := List (DartString × Value δ)

section Values

variable {δ : Type}

/-- `map[key]` of an entry there is. -/
def lookup (map : Entries δ) (key : DartString) : Option (Value δ) :=
  (map.find? fun entry => entry.1 == key).map Prod.snd

def containsKey (map : Entries δ) (key : DartString) : Bool := (lookup map key).isSome

/-- `map[key]` -/
def index (map : Entries δ) (key : DartString) : Value δ := (lookup map key).getD .null

/-- `value is String` with a check on it. -/
def isString (check : DartString → Bool) : Value δ → Bool
  | .string text => check text
  | _ => false

def isBool : Value δ → Bool
  | .boolean _ => true
  | _ => false

/-- `value is int` with a check on it. -/
def isInt (check : Int64 → Bool) : Value δ → Bool
  | .number (.int value) => check value
  | _ => false

end Values

inductive ContractCode where
  | accepted | invalidProtocol | unknownType | invalidMessageId | duplicateMessageId
  | invalidSentAt | expectedRevisionRequired | envelopeTooLarge | schemaInvalid
  | payloadSemanticError
deriving DecidableEq, Repr

def kMaxEnvelopeBytes : Nat := 64 * 1024
def kMaxStoredAlarms : Nat := 32
def kMaxAlarmLabelBytes : Nat := 48
def kMaxTimezoneBytes : Nat := 64
def kMaxSoundBytes : Nat := 32
def kMaxSourceEventIdBytes : Nat := 128

def kProtocolVersion : DartString := utf16 "dawn-dock/1"

def kKnownTypes : List DartString :=
  [utf16 "device.status.get", utf16 "time.configure", utf16 "schedule.preview",
    utf16 "schedule.apply", utf16 "schedule.get", utf16 "diagnostics.get",
    utf16 "backup.export", utf16 "factory.reset", utf16 "event.syncReceipt",
    utf16 "event.alarmState", utf16 "error.response"]

def kRevisionRequiredTypes : List DartString := [utf16 "schedule.preview", utf16 "schedule.apply"]

/-! ### Patterns -/

/-- `[0-9]` -/
def digit (unit : UInt16) : Bool := 0x30 ≤ unit && unit ≤ 0x39

/-- `[a-z]` -/
def lower (unit : UInt16) : Bool := 0x61 ≤ unit && unit ≤ 0x7a

/-- `[A-Z]` -/
def upper (unit : UInt16) : Bool := 0x41 ≤ unit && unit ≤ 0x5a

/-- One unit after the other, each in its class. -/
def matchesEach : List (UInt16 → Bool) → DartString → Bool
  | [], [] => true
  | matching :: classes, unit :: rest => matching unit && matchesEach classes rest
  | _, _ => false

/-- `^[A-Za-z0-9._:-]{1,128}$` -/
def messageIdPattern (text : DartString) : Bool :=
  1 ≤ text.length && text.length ≤ 128 && text.all fun unit =>
    upper unit || lower unit || digit unit || unit == 0x2e || unit == 0x5f || unit == 0x3a ||
      unit == 0x2d

/-- `^[0-9]{4}-[0-9]{2}-[0-9]{2}T[0-9]{2}:[0-9]{2}:[0-9]{2}Z$` -/
def sentAtPattern : DartString → Bool :=
  matchesEach [digit, digit, digit, digit, (· == 0x2d), digit, digit, (· == 0x2d), digit, digit,
    (· == 0x54), digit, digit, (· == 0x3a), digit, digit, (· == 0x3a), digit, digit, (· == 0x5a)]

/-- `^[a-z0-9][a-z0-9._-]{0,63}$` -/
def alarmIdPattern : DartString → Bool
  | [] => false
  | first :: rest => (lower first || digit first) && rest.length ≤ 63 && rest.all fun unit =>
      lower unit || digit unit || unit == 0x2e || unit == 0x5f || unit == 0x2d

/-- `^([01][0-9]|2[0-3]):[0-5][0-9]$` -/
def localTimePattern (text : DartString) : Bool :=
  matchesEach [fun unit => unit == 0x30 || unit == 0x31, digit, (· == 0x3a),
    fun unit => 0x30 ≤ unit && unit ≤ 0x35, digit] text ||
  matchesEach [(· == 0x32), fun unit => 0x30 ≤ unit && unit ≤ 0x33, (· == 0x3a),
    fun unit => 0x30 ≤ unit && unit ≤ 0x35, digit] text

/-- `int.parse` of digits. -/
def parseDigits (digits : DartString) : Nat :=
  digits.foldl (fun value unit => value * 10 + (unit.toNat - 0x30)) 0

def substring (text : DartString) (start finish : Nat) : DartString :=
  (text.drop start).take (finish - start)

def daysPerMonth (month : Nat) : Nat :=
  [31, 28, 31, 30, 31, 30, 31, 31, 30, 31, 30, 31].getD (month - 1) 0

def validUtcInstant (value : DartString) : Bool :=
  if !sentAtPattern value then false
  else
    let year := parseDigits (substring value 0 4)
    let month := parseDigits (substring value 5 7)
    let day := parseDigits (substring value 8 10)
    let hour := parseDigits (substring value 11 13)
    let minute := parseDigits (substring value 14 16)
    let second := parseDigits (substring value 17 19)
    if year == 0 || month < 1 || month > 12 || hour > 23 || minute > 59 || second > 59 then false
    else
      let leap := year % 4 == 0 && (year % 100 != 0 || year % 400 == 0)
      day ≥ 1 && day ≤ daysPerMonth month + (if month == 2 && leap then 1 else 0)

/-! ### Sizes -/

def utf8Length (value : DartString) : Nat :=
  (runes value).foldl (fun bytes unit =>
    if unit < 0x80 then bytes + 1
    else if unit < 0x800 then bytes + 2
    else if unit < 0x10000 then bytes + 3
    else bytes + 4) 0

def isUtf8Bounded (value : DartString) (maximumBytes : Nat) : Bool :=
  utf8Length value ≤ maximumBytes

/-- The code units of ASCII characters. -/
def asciiUnits (chars : List Char) : DartString := chars.map fun c => UInt16.ofNat c.toNat

/-- `int.toString` -/
def intText (value : Int) : DartString :=
  if value < 0 then 0x2d :: asciiUnits (Nat.toDigits 10 value.natAbs)
  else asciiUnits (Nat.toDigits 10 value.natAbs)

/-- The escape of a control character: four hexadecimal digits. -/
def controlEscape (unit : Nat) : DartString :=
  let hex := asciiUnits (Nat.toDigits 16 unit)
  [0x5c, 0x75] ++ List.replicate (4 - hex.length) 0x30 ++ hex

def canonicalRune (unit : Nat) : DartString :=
  if unit = 0x22 then [0x5c, 0x22]
  else if unit = 0x5c then [0x5c, 0x5c]
  else if unit = 0x08 then [0x5c, 0x62]
  else if unit = 0x0c then [0x5c, 0x66]
  else if unit = 0x0a then [0x5c, 0x6e]
  else if unit = 0x0d then [0x5c, 0x72]
  else if unit = 0x09 then [0x5c, 0x74]
  else if unit < 0x20 then controlEscape unit
  else ofRune unit

def canonicalString (value : DartString) : DartString :=
  [0x22] ++ (runes value).flatMap canonicalRune ++ [0x22]

section Canonical

variable {δ : Type} [Double δ]

def canonicalDouble (value : δ) : Option DartString :=
  if Double.isNaN value || Double.isInfinite value then none
  else
    match Double.integer value with
    | some integer =>
      if integer.natAbs < 10 ^ 15 then some (intText integer) else some (Double.toText value)
    | none => some (Double.toText value)

/-- `sort` by `compareTo`, which goes by code units. -/
def sortKeys (entries : List (DartString × DartString)) : List (DartString × DartString) :=
  entries.insertionSort fun a b => a.1 ≤ b.1

def separated (texts : List DartString) : DartString := List.intercalate [0x2c] texts

mutual

def writeCanonical : Value δ → Option DartString
  | .null => some (utf16 "null")
  | .boolean value => some (if value then utf16 "true" else utf16 "false")
  | .number (.int value) => some (intText value.toInt)
  | .number (.double value) => canonicalDouble value
  | .string text => some (canonicalString text)
  | .array elements => do
    let texts ← writeElements elements
    return [0x5b] ++ separated texts ++ [0x5d]
  | .object entries => do
    let texts ← writeEntries entries
    return [0x7b] ++ separated ((sortKeys texts).map fun entry =>
      canonicalString entry.1 ++ [0x3a] ++ entry.2) ++ [0x7d]

def writeElements : List (Value δ) → Option (List DartString)
  | [] => some []
  | element :: rest => do
    let text ← writeCanonical element
    let texts ← writeElements rest
    return text :: texts

/-- The texts of the entries, before they are put in the order of their keys. -/
def writeEntries : List (DartString × Value δ) → Option (List (DartString × DartString))
  | [] => some []
  | (key, value) :: rest => do
    let text ← writeCanonical value
    let texts ← writeEntries rest
    return (key, text) :: texts

end

def canonicalize (payload : Entries δ) : Option DartString := writeCanonical (.object payload)

/-- The frame size the payload reports of itself. -/
def reportedSize (payload : Entries δ) : Option Int64 :=
  match index payload (utf16 "_fixtureMeta") with
  | .object metadata =>
    match index metadata (utf16 "serializedSizeBytes") with
    | .number (.int value) => if value ≥ 0 then some value else none
    | _ => none
  | _ => none

def serializedEnvelopeBytes (payload : Entries δ) : Option Nat :=
  match reportedSize payload with
  | some value => some value.toInt.toNat
  | none => (canonicalize payload).map utf8Length

end Canonical

/-! ### Bodies -/

section Bodies

variable {δ : Type}

def alarmRequiredKeys : List DartString :=
  [utf16 "id", utf16 "label", utf16 "enabled", utf16 "localTime", utf16 "days",
    utf16 "timezone", utf16 "snoozeMinutes", utf16 "volume", utf16 "sound", utf16 "source",
    utf16 "sourceEventId"]

def errorCodeEnum : List DartString :=
  [utf16 "invalid_protocol", utf16 "unknown_type", utf16 "invalid_message_id",
    utf16 "duplicate_message_id", utf16 "invalid_sent_at", utf16 "expected_revision_required",
    utf16 "envelope_too_large", utf16 "revision_conflict", utf16 "schema_invalid",
    utf16 "payload_semantic_error", utf16 "unauthorized", utf16 "rate_limited"]

def errorRequiredKeys : List DartString := [utf16 "code", utf16 "summary", utf16 "retryable"]

def errorAllowedKeys : List DartString :=
  errorRequiredKeys ++ [utf16 "field", utf16 "currentRevision"]

def keysOf (map : Entries δ) : List DartString := map.map Prod.fst

/-- The loop over `days`, with the days already seen. -/
def checkDays : List Int64 → List (Value δ) → Bool
  | _, [] => true
  | seen, .number (.int day) :: rest =>
    if day < 0 || day > 6 || seen.contains day then false else checkDays (day :: seen) rest
  | _, _ :: _ => false

def isDays : Value δ → Bool
  | .array days => !(days.isEmpty || days.length > 7) && checkDays [] days
  | _ => false

def isSourceEventId : Value δ → Bool
  | .null => true
  | value => isString (isUtf8Bounded · kMaxSourceEventIdBytes) value

def validateAlarm : Value δ → ContractCode
  | .object alarm =>
    if !alarmRequiredKeys.all (keysOf alarm).contains || !(keysOf alarm).all alarmRequiredKeys.contains
    then .schemaInvalid
    else if !isString alarmIdPattern (index alarm (utf16 "id")) then .schemaInvalid
    else if !isString (fun label => !label.isEmpty && isUtf8Bounded label kMaxAlarmLabelBytes)
      (index alarm (utf16 "label")) then .schemaInvalid
    else if !isBool (index alarm (utf16 "enabled")) then .schemaInvalid
    else if !isString localTimePattern (index alarm (utf16 "localTime")) then .schemaInvalid
    else if !isDays (index alarm (utf16 "days")) then .schemaInvalid
    else if !isString (fun timezone => !(utf8Length timezone < 3) &&
        isUtf8Bounded timezone kMaxTimezoneBytes) (index alarm (utf16 "timezone")) then
      .schemaInvalid
    else if !isInt (fun snooze => !(snooze < 1 || snooze > 30))
      (index alarm (utf16 "snoozeMinutes")) then .schemaInvalid
    else if !isInt (fun volume => !(volume < 0 || volume > 100))
      (index alarm (utf16 "volume")) then .schemaInvalid
    else if !isString (fun sound => !sound.isEmpty && isUtf8Bounded sound kMaxSoundBytes)
      (index alarm (utf16 "sound")) then .schemaInvalid
    else if !isString (fun source => source == utf16 "manual" || source == utf16 "ics")
      (index alarm (utf16 "source")) then .schemaInvalid
    else if !isSourceEventId (index alarm (utf16 "sourceEventId")) then .schemaInvalid
    else .accepted
  | _ => .schemaInvalid

def validateAlarms : List (Value δ) → ContractCode
  | [] => .accepted
  | alarm :: rest =>
    match validateAlarm alarm with
    | .accepted => validateAlarms rest
    | code => code

/-- `(a as Map)['id']` of a valid alarm. -/
def alarmId : Value δ → DartString
  | .object alarm =>
    match index alarm (utf16 "id") with
    | .string id => id
    | _ => []
  | _ => []

def validateScheduleBody (body : Entries δ) : ContractCode :=
  match index body (utf16 "alarms") with
  | .array alarms =>
    if alarms.length > kMaxStoredAlarms then .payloadSemanticError
    else
      match validateAlarms alarms with
      | .accepted =>
        if (alarms.map alarmId).dedup.length != (alarms.map alarmId).length then
          .payloadSemanticError
        else .accepted
      | code => code
  | _ => .schemaInvalid

def validateErrorResponseBody (body : Entries δ) : ContractCode :=
  if !errorRequiredKeys.all (keysOf body).contains || !(keysOf body).all errorAllowedKeys.contains
  then .schemaInvalid
  else if !isString errorCodeEnum.contains (index body (utf16 "code")) then .schemaInvalid
  else if !isString (fun summary => !summary.isEmpty && isUtf8Bounded summary 160)
    (index body (utf16 "summary")) then .schemaInvalid
  else if containsKey body (utf16 "field") &&
    !isString (isUtf8Bounded · 64) (index body (utf16 "field")) then .schemaInvalid
  else if !isBool (index body (utf16 "retryable")) then .schemaInvalid
  else if containsKey body (utf16 "currentRevision") &&
    !isInt (fun revision => !(revision < 0)) (index body (utf16 "currentRevision")) then
    .schemaInvalid
  else .accepted

def validateSyncReceiptBody (body : Entries δ) : ContractCode :=
  if !([utf16 "appliedRevision", utf16 "alarmCount", utf16 "nextAlarmUtc"].all (containsKey body))
  then .schemaInvalid
  else if !isInt (fun applied => !(applied < 0)) (index body (utf16 "appliedRevision")) then
    .schemaInvalid
  else if !isInt (fun count => !(count < 0)) (index body (utf16 "alarmCount")) then .schemaInvalid
  else if isInt (fun count => count > Int64.ofNat kMaxStoredAlarms)
    (index body (utf16 "alarmCount")) then .payloadSemanticError
  else if !isString validUtcInstant (index body (utf16 "nextAlarmUtc")) then .schemaInvalid
  else .accepted

/-- The checks of `body`, by the type of the message. -/
def validateBody (type : DartString) : Value δ → ContractCode
  | .object body =>
    if kRevisionRequiredTypes.contains type then validateScheduleBody body
    else if type == utf16 "error.response" then validateErrorResponseBody body
    else if type == utf16 "event.syncReceipt" then validateSyncReceiptBody body
    else .accepted
  | _ => .schemaInvalid

end Bodies

/-! ### Gate -/

section Gate

variable {δ : Type} [Double δ]

/-- The checks of the envelope before its size; `none` is a pass. -/
def envelopeCode (payload : Entries δ) (replayWindow : Option (Finset DartString)) :
    Option ContractCode :=
  if !isString (· == kProtocolVersion) (index payload (utf16 "protocol")) then
    some .invalidProtocol
  else if !isString kKnownTypes.contains (index payload (utf16 "type")) then some .unknownType
  else if !isString messageIdPattern (index payload (utf16 "messageId")) then
    some .invalidMessageId
  else if isString (fun messageId => replayWindow.any fun window => messageId ∈ window)
    (index payload (utf16 "messageId")) then some .duplicateMessageId
  else if !isString validUtcInstant (index payload (utf16 "sentAt")) then some .invalidSentAt
  else if isString kRevisionRequiredTypes.contains (index payload (utf16 "type")) &&
    !containsKey payload (utf16 "expectedRevision") then some .expectedRevisionRequired
  else none

/-- A string that has been checked to be one. -/
def asString : Value δ → DartString
  | .string text => text
  | _ => []

def validateContractMessage (payload : Entries δ) (replayWindow : Option (Finset DartString)) :
    Option (ContractCode × Option (Finset DartString)) :=
  match envelopeCode payload replayWindow with
  | some code => some (code, replayWindow)
  | none => do
    let size ← serializedEnvelopeBytes payload
    if size > kMaxEnvelopeBytes then return (.envelopeTooLarge, replayWindow)
    let code := validateBody (asString (index payload (utf16 "type"))) (index payload (utf16 "body"))
    if code = .accepted then
      return (code, replayWindow.map (insert (asString (index payload (utf16 "messageId")))))
    return (code, replayWindow)

end Gate

end DawnDock.App
