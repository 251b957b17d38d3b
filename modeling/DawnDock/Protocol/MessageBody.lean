import DawnDock.Protocol.JsonParser

/-!
The body validators (`message_body_validator.cpp`) and the gate over whole messages.

A check that fails leaves its result in an out parameter and returns early; here it is
the error of an `Except`.
-/

namespace DawnDock

open ByteCodec

def kBodyMaximumAlarms : Nat := 32
def kBodyMaximumAlarmIdBytes : Nat := 64
def kBodyMaximumLabelBytes : Nat := 48
def kBodyMaximumTimezoneBytes : Nat := 64
def kBodyMaximumSoundBytes : Nat := 32
def kBodyMaximumSourceEventIdBytes : Nat := 128
def kBodyMaximumSummaryBytes : Nat := 160
def kBodyMaximumFieldBytes : Nat := 64

/-- Why a body is refused. -/
inductive MessageBodyCode where
  | accepted | schemaInvalid | payloadSemanticError
deriving DecidableEq, Repr

/-- The code, and the path of the field that it is about. -/
structure MessageBodyValidationResult where
  code : MessageBodyCode
  accepted : Bool
  retryable : Bool
  fieldPath : Text
deriving DecidableEq, Repr

/-- Checks up to the first failure. -/
abbrev BodyCheck (α : Type) := Except MessageBodyValidationResult α

/-- A refusal ends the check. -/
def reject {α : Type} (code : MessageBodyCode) (path : Text) : BodyCheck α :=
  .error { code, accepted := false, retryable := false, fieldPath := path }

def acceptBody : MessageBodyValidationResult :=
  { code := .accepted, accepted := true, retryable := false, fieldPath := [] }

def BodyCheck.result (check : BodyCheck Unit) : MessageBodyValidationResult :=
  match check with
  | .ok _ => acceptBody
  | .error failure => failure

/-! ### Members -/

/-- `JsonValue::find`; only an object has members. -/
def findMember (value : JsonValue) (key : Text) : Option JsonValue :=
  match value with
  | .object members => (members.find? fun member => member.1 == key).map Prod.snd
  | _ => none

def isObject : JsonValue → Bool
  | .object _ => true
  | _ => false

def hasMember (value : JsonValue) (key : Text) : Bool := (findMember value key).isSome

/-- A check made of each item in turn. -/
def forEach {α : Type} (check : α → BodyCheck Unit) : List α → BodyCheck Unit
  | [] => .ok ()
  | item :: rest => do
    check item
    forEach check rest

/-- The first required key that is missing is reported. -/
def checkMissingRequired (object : JsonValue) (pathPrefix : Text) (required : List Text) :
    BodyCheck Unit :=
  forEach (fun key =>
    if hasMember object key then .ok () else reject .schemaInvalid (childPath pathPrefix key))
    required

def memberKeys (value : JsonValue) : List Text :=
  match value with
  | .object members => members.map Prod.fst
  | _ => []

/-- The first key that is not allowed is reported. -/
def checkNoUnknownKeys (object : JsonValue) (pathPrefix : Text) (allowed : List Text) :
    BodyCheck Unit :=
  forEach (fun key =>
    if allowed.contains key then .ok () else reject .schemaInvalid (childPath pathPrefix key))
    (memberKeys object)

/-- The text of a field; a missing field or one of another type is reported. -/
def requireString (object : JsonValue) (key pathPrefix : Text) : BodyCheck Text :=
  match findMember object key with
  | some (.string text) => .ok text
  | _ => reject .schemaInvalid (childPath pathPrefix key)

def requireBoolean (object : JsonValue) (key pathPrefix : Text) : BodyCheck Bool :=
  match findMember object key with
  | some (.boolean value) => .ok value
  | _ => reject .schemaInvalid (childPath pathPrefix key)

def requireInteger (object : JsonValue) (key pathPrefix : Text) : BodyCheck Int64 :=
  match findMember object key with
  | some (.number value) => .ok value
  | _ => reject .schemaInvalid (childPath pathPrefix key)

/-- A check that rejects the field it is about. -/
def ensure (ok : Bool) (pathPrefix key : Text) : BodyCheck Unit :=
  if ok then .ok () else reject .schemaInvalid (childPath pathPrefix key)

/-! ### Alarms -/

def isLowerAlnum (c : UInt8) : Bool := (0x61 ≤ c && c ≤ 0x7a) || (0x30 ≤ c && c ≤ 0x39)

def isIdTailChar (c : UInt8) : Bool := isLowerAlnum c || c == 0x2e || c == 0x5f || c == 0x2d

/-- The pattern of the schema, with the bound on its length. -/
def isValidAlarmId : Text → Bool
  | [] => false
  | front :: tail =>
    if (front :: tail).length > kBodyMaximumAlarmIdBytes then false
    else isLowerAlnum front && tail.all isIdTailChar

/-- `HH:MM` on a clock of 24 hours. -/
def isValidLocalTime : Text → Bool
  | [tens, ones, colon, minuteTens, minuteOnes] =>
    if colon != 0x3a then false
    else if tens < 0x30 || tens > 0x32 || ones < 0x30 || ones > 0x39 || minuteTens < 0x30 ||
        minuteTens > 0x35 || minuteOnes < 0x30 || minuteOnes > 0x39 then false
    else !(tens == 0x32 && ones > 0x33)
  | _ => false

/-- The loop over `days`; `seen` holds the days before `index`. -/
def checkDays (daysPath : Text) : Nat → List Int64 → List JsonValue → BodyCheck Unit
  | _, _, [] => .ok ()
  | index, seen, day :: rest =>
    match day with
    | .number number =>
      if number < 0 || number > 6 then reject .schemaInvalid (childPath daysPath (decimalText index))
      else if seen.contains number then
        reject .schemaInvalid (childPath daysPath (decimalText index))
      else checkDays daysPath (index + 1) (number :: seen) rest
    | _ => reject .schemaInvalid (childPath daysPath (decimalText index))

def alarmKeys : List Text :=
  [utf8 "id", utf8 "label", utf8 "enabled", utf8 "localTime", utf8 "days", utf8 "timezone",
    utf8 "snoozeMinutes", utf8 "volume", utf8 "sound", utf8 "source", utf8 "sourceEventId"]

/-- One to seven different days, each 0 to 6. -/
def checkAlarmDays (alarm : JsonValue) (path : Text) : BodyCheck Unit :=
  let daysPath := childPath path (utf8 "days")
  match findMember alarm (utf8 "days") with
  | some (.array elements) =>
    if elements.isEmpty || elements.length > 7 then reject .schemaInvalid daysPath
    else checkDays daysPath 0 [] elements
  | _ => reject .schemaInvalid daysPath

def checkSourceEventId (alarm : JsonValue) (path : Text) : BodyCheck Unit :=
  match findMember alarm (utf8 "sourceEventId") with
  | some .null => .ok ()
  | some (.string text) =>
    ensure (text.length ≤ kBodyMaximumSourceEventIdBytes) path (utf8 "sourceEventId")
  | _ => reject .schemaInvalid (childPath path (utf8 "sourceEventId"))

/-- All fields of one alarm, in the order in which they are reported. -/
def validateAlarm (alarm : JsonValue) (path : Text) : BodyCheck Unit :=
  if !isObject alarm then reject .schemaInvalid path
  else do
    checkMissingRequired alarm path alarmKeys
    checkNoUnknownKeys alarm path alarmKeys
    let id ← requireString alarm (utf8 "id") path
    ensure (isValidAlarmId id) path (utf8 "id")
    let label ← requireString alarm (utf8 "label") path
    ensure (!(label.isEmpty || label.length > kBodyMaximumLabelBytes)) path (utf8 "label")
    let _ ← requireBoolean alarm (utf8 "enabled") path
    let localTime ← requireString alarm (utf8 "localTime") path
    ensure (isValidLocalTime localTime) path (utf8 "localTime")
    checkAlarmDays alarm path
    let timezone ← requireString alarm (utf8 "timezone") path
    ensure (!(timezone.length < 3 || timezone.length > kBodyMaximumTimezoneBytes)) path
      (utf8 "timezone")
    let snoozeMinutes ← requireInteger alarm (utf8 "snoozeMinutes") path
    ensure (!(snoozeMinutes < 1 || snoozeMinutes > 30)) path (utf8 "snoozeMinutes")
    let volume ← requireInteger alarm (utf8 "volume") path
    ensure (!(volume < 0 || volume > 100)) path (utf8 "volume")
    let sound ← requireString alarm (utf8 "sound") path
    ensure (!(sound.isEmpty || sound.length > kBodyMaximumSoundBytes)) path (utf8 "sound")
    let source ← requireString alarm (utf8 "source") path
    ensure (!(source != utf8 "manual" && source != utf8 "ics")) path (utf8 "source")
    checkSourceEventId alarm path

/-! ### Bodies -/

/-- The loop that validates each alarm. -/
def checkAlarms : Nat → List JsonValue → BodyCheck Unit
  | _, [] => .ok ()
  | index, alarm :: rest => do
    validateAlarm alarm (childPath (utf8 "/alarms") (decimalText index))
    checkAlarms (index + 1) rest

/-- The text of the `id` member; other kinds of value have an empty one. -/
def idText (alarm : JsonValue) : Option Text :=
  (findMember alarm (utf8 "id")).map fun
    | .string text => text
    | _ => []

/-- The inner loop over the later alarms. -/
def checkLater (firstId : Text) : Nat → List JsonValue → BodyCheck Unit
  | _, [] => .ok ()
  | second, alarm :: rest =>
    if idText alarm = some firstId then
      reject .payloadSemanticError (childPath (utf8 "/alarms") (decimalText second))
    else checkLater firstId (second + 1) rest

/-- The nested loops over pairs of alarms. -/
def checkDuplicates : Nat → List JsonValue → BodyCheck Unit
  | _, [] => .ok ()
  | first, alarm :: rest => do
    match idText alarm with
    | none => pure ()
    | some firstId => checkLater firstId (first + 1) rest
    checkDuplicates (first + 1) rest

/-- The list of alarms: its length, each alarm, and that their ids differ. -/
def validateScheduleBody (body : JsonValue) : BodyCheck Unit :=
  match findMember body (utf8 "alarms") with
  | some (.array elements) =>
    if elements.length > kBodyMaximumAlarms then reject .payloadSemanticError (utf8 "/alarms")
    else do
      checkAlarms 0 elements
      checkDuplicates 0 elements
  | _ => reject .schemaInvalid (utf8 "/alarms")

def isValidErrorCode (code : Text) : Bool :=
  [utf8 "invalid_protocol", utf8 "unknown_type", utf8 "invalid_message_id",
    utf8 "duplicate_message_id", utf8 "invalid_sent_at", utf8 "expected_revision_required",
    utf8 "envelope_too_large", utf8 "revision_conflict", utf8 "schema_invalid",
    utf8 "payload_semantic_error", utf8 "unauthorized", utf8 "rate_limited"].contains code

def validateErrorResponseBody (body : JsonValue) : BodyCheck Unit := do
  checkMissingRequired body [] [utf8 "code", utf8 "summary", utf8 "retryable"]
  checkNoUnknownKeys body [] [utf8 "code", utf8 "summary", utf8 "field", utf8 "retryable",
    utf8 "currentRevision"]
  let code ← requireString body (utf8 "code") []
  ensure (isValidErrorCode code) [] (utf8 "code")
  let summary ← requireString body (utf8 "summary") []
  ensure (!(summary.isEmpty || summary.length > kBodyMaximumSummaryBytes)) [] (utf8 "summary")
  if hasMember body (utf8 "field") then
    let field ← requireString body (utf8 "field") []
    ensure (field.length ≤ kBodyMaximumFieldBytes) [] (utf8 "field")
  let _ ← requireBoolean body (utf8 "retryable") []
  if hasMember body (utf8 "currentRevision") then
    let revision ← requireInteger body (utf8 "currentRevision") []
    ensure (!(revision < 0)) [] (utf8 "currentRevision")

def validateSyncReceiptBody (body : JsonValue) : BodyCheck Unit := do
  checkMissingRequired body [] [utf8 "appliedRevision", utf8 "alarmCount", utf8 "nextAlarmUtc"]
  let appliedRevision ← requireInteger body (utf8 "appliedRevision") []
  ensure (!(appliedRevision < 0)) [] (utf8 "appliedRevision")
  let alarmCount ← requireInteger body (utf8 "alarmCount") []
  ensure (!(alarmCount < 0)) [] (utf8 "alarmCount")
  if alarmCount.toUInt64.toNat > kBodyMaximumAlarms then
    reject .payloadSemanticError (utf8 "/alarmCount")
  let nextAlarmUtc ← requireString body (utf8 "nextAlarmUtc") []
  ensure (isValidProtocolUtcInstant nextAlarmUtc) [] (utf8 "nextAlarmUtc")

/-- The check that goes with the type of the message. -/
def validateProtocolMessageBody (body : JsonValue) (type : Text) : MessageBodyValidationResult :=
  if !isObject body then BodyCheck.result (reject .schemaInvalid (utf8 "/body"))
  else if type == utf8 "schedule.preview" || type == utf8 "schedule.apply" then
    (validateScheduleBody body).result
  else if type == utf8 "error.response" then (validateErrorResponseBody body).result
  else if type == utf8 "event.syncReceipt" then (validateSyncReceiptBody body).result
  else acceptBody

/-! ### Messages -/

/-- Both stages: the envelope, and the body if the envelope was accepted. -/
structure ProtocolMessageValidationResult where
  accepted : Bool
  retryable : Bool
  code : Text
  fieldPath : Text
deriving DecidableEq, Repr

def validateProtocolMessage (envelope : ProtocolEnvelope) (bodyJson : Bytes)
    (replayWindow : Option ReplayWindow) :
    ProtocolMessageValidationResult × Option ReplayWindow :=
  let (envelopeResult, replayWindow) := validateProtocolEnvelope envelope replayWindow false
  if !envelopeResult.accepted then
    ({ accepted := false
       retryable := envelopeResult.retryable
       code := envelopeResult.code.toText
       fieldPath := [] }, replayWindow)
  else
    match parseJson bodyJson with
    | .error error =>
      if error.code = .inputTooLarge then
        ({ accepted := false
           retryable := false
           code := utf8 "envelope_too_large"
           fieldPath := [] }, replayWindow)
      else
        ({ accepted := false
           retryable := false
           code := utf8 "schema_invalid"
           fieldPath := utf8 "/body" ++ error.path }, replayWindow)
    | .ok value =>
      let bodyResult := validateProtocolMessageBody value envelope.type
      if !bodyResult.accepted then
        ({ accepted := false
           retryable := bodyResult.retryable
           code := if bodyResult.code = .schemaInvalid then utf8 "schema_invalid"
             else utf8 "payload_semantic_error"
           fieldPath := bodyResult.fieldPath }, replayWindow)
      else
        -- the replay state is committed only after the complete message has passed
        ({ accepted := true
           retryable := false
           code := utf8 "accepted"
           fieldPath := [] }, replayWindow.map (·.remember envelope.messageId))

end DawnDock
