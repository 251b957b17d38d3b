import DawnDock.App.Instants
import DawnDock.App.JsonEncoder
import DawnDock.App.ScheduleDiff

/-!
The preview and apply exchange of the app (`schedule_exchange.dart`).

An operation takes the exchange, and the store where it reads it, and gives what it
returns or throws beside the exchange it leaves. Only `ingest` leaves another store.
-/

namespace DawnDock.App

inductive ExchangePhase where
  | idle | previewSent | readyToApply | applySent | needsRefresh | applied
deriving DecidableEq, Repr

def ExchangePhase.name : ExchangePhase → String
  | .idle => "idle"
  | .previewSent => "previewSent"
  | .readyToApply => "readyToApply"
  | .applySent => "applySent"
  | .needsRefresh => "needsRefresh"
  | .applied => "applied"

inductive IngestDisposition where
  | applied | invalid | conflict | rejected
deriving DecidableEq, Repr

structure IngestResult where
  disposition : IngestDisposition
  code : Option DartString
  currentRevision : Option Int64
deriving DecidableEq

def contractCodeName : ContractCode → String
  | .accepted => "accepted"
  | .invalidProtocol => "invalid_protocol"
  | .unknownType => "unknown_type"
  | .invalidMessageId => "invalid_message_id"
  | .duplicateMessageId => "duplicate_message_id"
  | .invalidSentAt => "invalid_sent_at"
  | .expectedRevisionRequired => "expected_revision_required"
  | .envelopeTooLarge => "envelope_too_large"
  | .schemaInvalid => "schema_invalid"
  | .payloadSemanticError => "payload_semantic_error"

/-- `^[A-Za-z0-9._:-]{1,128}$`, and at most 128 bytes. -/
def applyTokenPattern (token : DartString) : Bool :=
  messageIdPattern token && !(utf8Length token > 128)

/-- `_isBoundedMessageId` -/
def isBoundedMessageId (messageId : DartString) : Bool :=
  messageId.length ≤ 128 && messageIdPattern messageId

structure ScheduleExchange where
  seenInboundMessageIds : Finset DartString
  phase : ExchangePhase
  armed : Option ScheduleDiff
  boundToken : Option DartString
  boundDigest : Option DartString
  conflictRevision : Option Int64

section Envelopes

variable {δ : Type} [Double δ]

/-- `_digest` -/
def digest (alarms : List (Value δ)) : Option DartString := jsonEncode (.array alarms)

/-- The entries of an envelope. -/
def envelopeEntries (type messageId sentAtText : DartString) (expectedRevision : Int64)
    (body : Entries δ) : Entries δ :=
  [(utf16 "protocol", .string kProtocolVersion), (utf16 "messageId", .string messageId),
    (utf16 "sentAt", .string sentAtText), (utf16 "type", .string type),
    (utf16 "expectedRevision", .number (.int expectedRevision)), (utf16 "body", .object body)]

/-- `_envelope` -/
def buildEnvelope (type messageId : DartString) (sentAt : DateTime) (expectedRevision : Int64)
    (body : Entries δ) : Except DartError (Entries δ) :=
  if !isBoundedMessageId messageId then
    .error (.exchangeReject "invalid_message_id"
      "message identity would not survive the contract gate")
  else do
    let sentAtText ← formatSentAt sentAt
    let envelope := envelopeEntries type messageId sentAtText expectedRevision body
    match validateContractMessage envelope none with
    | none => .error (.stateError "non-finite double in contract payload")
    | some (code, _) =>
      if code ≠ .accepted then .error (.exchangeReject (contractCodeName code) "")
      else return envelope

/-- The body of an apply. -/
def applyBody (token : Option DartString) (alarms : List (Value δ)) : Entries δ :=
  [(utf16 "applyToken",
      match token with
      | some token => .string token
      | none => .null),
    (utf16 "alarms", .array alarms)]

end Envelopes

namespace ScheduleExchange

def create : ScheduleExchange :=
  { seenInboundMessageIds := ∅
    phase := .idle
    armed := none
    boundToken := none
    boundDigest := none
    conflictRevision := none }

section Operations

variable (δ : Type) [Double δ]

def beginPreview (exchange : ScheduleExchange) (store : DeviceScheduleStore) (diff : ScheduleDiff) :
    Except DartError Unit × ScheduleExchange :=
  if exchange.phase ≠ .idle then
    (.error (.stateError ("exchange is " ++ exchange.phase.name ++ "; abort or reset first")),
      exchange)
  else if exchange.armed.isSome then
    (.error (.stateError "a proposal is already armed; abort first"), exchange)
  else if diff.expectedRevision ≠ store.knownRevision then
    (.error (.argumentValue "diff.expectedRevision" ("proposal does not match mirror revision " ++
      toString store.knownRevision.toInt ++ "; refresh the mirror first")), exchange)
  else
    match @digest δ _ diff.toWirePreviewBody with
    | none => (.error .typeError, { exchange with armed := some diff })
    | some bound => (.ok (), { exchange with armed := some diff, boundDigest := some bound })

def receiveApplyToken (exchange : ScheduleExchange) (token : DartString) :
    Except DartError Unit × ScheduleExchange :=
  if exchange.phase ≠ .previewSent then
    (.error (.stateError ("apply token only binds after the preview request is built (" ++
      exchange.phase.name ++ ")")), exchange)
  else if !applyTokenPattern token then
    (.error (.argumentValue "token" "apply token shape invalid"), exchange)
  else (.ok (), { exchange with boundToken := some token, phase := .readyToApply })

variable {δ}

def buildPreview (exchange : ScheduleExchange) (messageId : DartString) (sentAt : DateTime) :
    Except DartError (Entries δ) × ScheduleExchange :=
  match exchange.armed with
  | none => (.error (.stateError "buildPreview requires an armed proposal"), exchange)
  | some diff =>
    if exchange.phase ≠ .idle then
      (.error (.stateError ("preview request already built (" ++ exchange.phase.name ++ ")")),
        exchange)
    else
      match buildEnvelope (utf16 "schedule.preview") messageId sentAt diff.expectedRevision
        [(utf16 "alarms", .array diff.toWirePreviewBody)] with
      | .error error => (.error error, exchange)
      | .ok envelope => (.ok envelope, { exchange with phase := .previewSent })

def buildApply (exchange : ScheduleExchange) (store : DeviceScheduleStore) (messageId : DartString)
    (sentAt : DateTime) : Except DartError (Entries δ) × ScheduleExchange :=
  match exchange.armed with
  | none => (.error (.stateError "buildApply requires an armed proposal"), exchange)
  | some diff =>
    if exchange.phase ≠ .readyToApply then
      (.error (.stateError ("apply requires a bound token (" ++ exchange.phase.name ++ ")")),
        exchange)
    else if store.knownRevision ≠ diff.expectedRevision then
      (.error (.stateError ("mirror advanced to " ++ toString store.knownRevision.toInt ++
        " while this exchange is bound to revision " ++ toString diff.expectedRevision.toInt ++
        "; refresh and re-preview")), exchange)
    else if @digest δ _ diff.toWirePreviewBody ≠ exchange.boundDigest then
      (.error (.stateError "previewed content drifted after token binding"), exchange)
    else
      match buildEnvelope (utf16 "schedule.apply") messageId sentAt diff.expectedRevision
        (applyBody exchange.boundToken diff.toWirePreviewBody) with
      | .error error => (.error error, exchange)
      | .ok envelope => (.ok envelope, { exchange with phase := .applySent })

/-- `as int` -/
def asInt : Value δ → Except DartError Int64
  | .number (.int value) => .ok value
  | _ => .error .typeError

/-- `as int?` -/
def asOptionalInt : Value δ → Except DartError (Option Int64)
  | .null => .ok none
  | value => (asInt value).map some

/-- `as Map` -/
def asEntries : Value δ → Entries δ
  | .object entries => entries
  | _ => []

/-- What `ingest` leaves: its result or error, the exchange and the store. -/
abbrev Ingested := Except DartError IngestResult × ScheduleExchange × DeviceScheduleStore

/-- The proposal, its token and its digest are given up. -/
def disarm (exchange : ScheduleExchange) : ScheduleExchange :=
  { exchange with boundToken := none, armed := none, boundDigest := none }

/-- What a receipt says. -/
structure Receipt where
  appliedRevision : Int64
  alarmCount : Int64
  nextAlarmUtc : DateTime

def readReceipt (body : Entries δ) : Except DartError Receipt := do
  let appliedRevision ← asInt (index body (utf16 "appliedRevision"))
  let alarmCount ← asInt (index body (utf16 "alarmCount"))
  let nextAlarmUtc ← parseUtcInstant (asString (index body (utf16 "nextAlarmUtc")))
  return { appliedRevision, alarmCount, nextAlarmUtc }

def ingestReceipt (exchange : ScheduleExchange) (store : DeviceScheduleStore) (body : Entries δ)
    (now : DateTime) : Ingested :=
  match exchange.armed with
  | none => (.error .typeError, exchange, store)
  | some diff =>
    match readReceipt body with
    | .error error => (.error error, exchange, store)
    | .ok receipt =>
      if receipt.appliedRevision ≠ diff.expectedRevision + 1 ∨
          receipt.alarmCount.toInt ≠ diff.proposedOrder.length then
        (.ok { disposition := .rejected
               code := some (utf16 "payload_semantic_error")
               currentRevision := none }, exchange, store)
      else
        match store.recordApplied receipt.appliedRevision diff.proposedOrder receipt.nextAlarmUtc
          now with
        | .error error => (.error error, exchange, store)
        | .ok store =>
          (.ok { disposition := .applied, code := none, currentRevision := none },
            { exchange.disarm with phase := .applied }, store)

def ingestError (exchange : ScheduleExchange) (store : DeviceScheduleStore) (body : Entries δ) :
    Ingested :=
  let code := asString (index body (utf16 "code"))
  match asOptionalInt (index body (utf16 "currentRevision")) with
  | .error error => (.error error, exchange, store)
  | .ok currentRevision =>
    if code = utf16 "revision_conflict" then
      (.ok { disposition := .conflict, code := some code, currentRevision },
        { exchange.disarm with conflictRevision := currentRevision, phase := .needsRefresh }, store)
    else
      (.ok { disposition := .rejected, code := some code, currentRevision := none },
        { exchange.disarm with conflictRevision := none, phase := .idle }, store)

/-- `now` is the reading of the store's clock. -/
def ingest (exchange : ScheduleExchange) (store : DeviceScheduleStore) (payload : Entries δ)
    (now : DateTime) : Ingested :=
  if exchange.phase ≠ .applySent then
    (.error (.stateError ("ingest only applies while awaiting the response (" ++
      exchange.phase.name ++ ")")), exchange, store)
  else
    match validateContractMessage payload (some exchange.seenInboundMessageIds) with
    | none => (.error (.stateError "non-finite double in contract payload"), exchange, store)
    | some (gate, window) =>
      let exchange :=
        { exchange with seenInboundMessageIds := window.getD exchange.seenInboundMessageIds }
      if gate ≠ .accepted then
        (.ok { disposition := .invalid
               code := some (utf16 (contractCodeName gate))
               currentRevision := none }, exchange, store)
      else
        let type := asString (index payload (utf16 "type"))
        let body := asEntries (index payload (utf16 "body"))
        if type = utf16 "event.syncReceipt" then exchange.ingestReceipt store body now
        else if type = utf16 "error.response" then exchange.ingestError store body
        else
          (.error (.argumentValue "payload['type']" "not an ingestable response type"),
            exchange, store)

def rebase (exchange : ScheduleExchange) (store : DeviceScheduleStore) :
    Except DartError Unit × ScheduleExchange :=
  if exchange.phase ≠ .needsRefresh then
    (.error (.stateError ("rebase only applies after a conflict (" ++ exchange.phase.name ++ ")")),
      exchange)
  else
    match exchange.conflictRevision with
    | none =>
      (.error (.stateError
        "conflict carried no currentRevision; abort and re-preview from a refreshed mirror"),
        exchange)
    | some revision =>
      if store.knownRevision ≠ revision then
        (.error (.stateError ("mirror is at " ++ toString store.knownRevision.toInt ++
          "; rebase requires a refresh to revision " ++ toString revision.toInt ++ " first")),
          exchange)
      else (.ok (), { exchange with conflictRevision := none, phase := .idle })

def abort (exchange : ScheduleExchange) : Except DartError Unit × ScheduleExchange :=
  if exchange.phase = .idle ∨ exchange.phase = .applied then
    (.error (.stateError ("nothing to abort (" ++ exchange.phase.name ++ ")")), exchange)
  else (.ok (), { exchange.disarm with conflictRevision := none, phase := .idle })

def reset (exchange : ScheduleExchange) : Except DartError Unit × ScheduleExchange :=
  if exchange.phase ≠ .applied then
    (.error (.stateError ("only a completed exchange resets (" ++ exchange.phase.name ++ ")")),
      exchange)
  else (.ok (), { exchange with phase := .idle })

end Operations

end ScheduleExchange

end DawnDock.App
