import DawnDock.AlarmEngine
import Mathlib.Data.Finset.Insert
import Mathlib.Data.Finset.Erase

/-!
The envelope gate (`protocol_service.cpp`): what is checked of a message before its
body, and the window of the message ids accepted last.

`std::isalnum` and `std::isdigit` are those of the "C" locale. The gate takes a pointer
to a window; here it takes and returns an optional one.
-/

namespace DawnDock

def kProtocolEnvelopeMaximumBytes : Nat := 64 * 1024
def kProtocolMessageIdMaximumBytes : Nat := 128

structure ProtocolEnvelope where
  protocol : Text
  messageId : Text
  sentAtUtc : Text
  type : Text
  expectedRevision : Option UInt64
  serializedSizeBytes : Nat
deriving DecidableEq, Repr

inductive ProtocolValidationCode where
  | accepted | invalidProtocol | unknownType | invalidMessageId | duplicateMessageId
  | invalidSentAt | expectedRevisionRequired | envelopeTooLarge
deriving DecidableEq, Repr

structure ProtocolValidationResult where
  code : ProtocolValidationCode := .accepted
  accepted : Bool := false
  retryable : Bool := false
deriving DecidableEq, Repr

/-! ### Fields -/

/-- `std::isdigit` -/
def isdigit (c : UInt8) : Bool := 0x30 ≤ c && c ≤ 0x39

/-- `std::isalnum` -/
def isalnum (c : UInt8) : Bool :=
  isdigit c || (0x41 ≤ c && c ≤ 0x5a) || (0x61 ≤ c && c ≤ 0x7a)

def isValidMessageIdChar (value : UInt8) : Bool :=
  isalnum value || value == 0x2d || value == 0x5f || value == 0x3a || value == 0x2e

def isValidMessageId (messageId : Text) : Bool :=
  if messageId.isEmpty || messageId.length > kProtocolMessageIdMaximumBytes then false
  else messageId.all isValidMessageIdChar

def allDigits (value : Text) : Bool := !value.isEmpty && value.all isdigit

def digitsToInt (digits : Text) : Nat :=
  digits.foldl (fun value digit => value * 10 + (digit.toNat - 0x30)) 0

def isKnownRequestType (type : Text) : Bool :=
  [utf8 "device.status.get", utf8 "time.configure", utf8 "schedule.preview",
    utf8 "schedule.apply", utf8 "schedule.get", utf8 "diagnostics.get",
    utf8 "backup.export", utf8 "factory.reset", utf8 "event.syncReceipt",
    utf8 "event.alarmState", utf8 "error.response"].contains type

def requiresExpectedRevision (type : Text) : Bool :=
  type == utf8 "schedule.preview" || type == utf8 "schedule.apply"

/-- `substr` -/
def substr (value : Text) (position count : Nat) : Text := (value.drop position).take count

def daysPerMonth (month : Nat) : Nat :=
  [31, 28, 31, 30, 31, 30, 31, 31, 30, 31, 30, 31].getD (month - 1) 0

/-- The length, the separators and the digits of an instant. -/
def isInstantShaped (value : Text) : Bool :=
  value.length == 20 && value[4]? == some 0x2d && value[7]? == some 0x2d &&
    value[10]? == some 0x54 && value[13]? == some 0x3a && value[16]? == some 0x3a &&
    value[19]? == some 0x5a && allDigits (substr value 0 4) && allDigits (substr value 5 2) &&
    allDigits (substr value 8 2) && allDigits (substr value 11 2) &&
    allDigits (substr value 14 2) && allDigits (substr value 17 2)

def isValidProtocolUtcInstant (value : Text) : Bool :=
  if !isInstantShaped value then false
  else
    let year := digitsToInt (substr value 0 4)
    let month := digitsToInt (substr value 5 2)
    let day := digitsToInt (substr value 8 2)
    let hour := digitsToInt (substr value 11 2)
    let minute := digitsToInt (substr value 14 2)
    let second := digitsToInt (substr value 17 2)
    if year == 0 || month < 1 || month > 12 || hour > 23 || minute > 59 || second > 59 then false
    else
      let leap := year % 4 == 0 && (year % 100 != 0 || year % 400 == 0)
      day ≥ 1 && day ≤ daysPerMonth month + (month == 2 && leap).toNat

/-! ### Replay window -/

/-- `ReplayWindow`, as its constructor leaves it. -/
structure ReplayWindow where
  capacity : Nat
  order : List Text := []
  set : Finset Text := ∅
deriving DecidableEq

namespace ReplayWindow

def contains (window : ReplayWindow) (messageId : Text) : Bool := messageId ∈ window.set

/-- The `while` loop of `remember`. -/
def evict (window : ReplayWindow) : ReplayWindow :=
  loop window.order window.set
where
  loop : List Text → Finset Text → ReplayWindow
    | [], set => { window with order := [], set }
    | front :: rest, set =>
      if (front :: rest).length > window.capacity then loop rest (set.erase front)
      else { window with order := front :: rest, set }

def remember (window : ReplayWindow) (messageId : Text) : ReplayWindow :=
  if window.capacity == 0 then window
  else if messageId ∈ window.set then window
  else
    evict { window with
      order := window.order ++ [messageId]
      set := insert messageId window.set }

end ReplayWindow

/-! ### Gate -/

/-- The checks of the envelope, in the order of the source. -/
def envelopeResult (envelope : ProtocolEnvelope) (replayWindow : Option ReplayWindow) :
    ProtocolValidationResult :=
  if envelope.protocol != utf8 "dawn-dock/1" then { code := .invalidProtocol }
  else if !isKnownRequestType envelope.type then { code := .unknownType }
  else if !isValidMessageId envelope.messageId then { code := .invalidMessageId }
  else if replayWindow.any (·.contains envelope.messageId) then
    { code := .duplicateMessageId, retryable := true }
  else if !isValidProtocolUtcInstant envelope.sentAtUtc then { code := .invalidSentAt }
  else if requiresExpectedRevision envelope.type && envelope.expectedRevision.isNone then
    { code := .expectedRevisionRequired, retryable := true }
  else if envelope.serializedSizeBytes > kProtocolEnvelopeMaximumBytes then
    { code := .envelopeTooLarge }
  else { code := .accepted, accepted := true }

def validateProtocolEnvelope (envelope : ProtocolEnvelope) (replayWindow : Option ReplayWindow)
    (rememberAccepted : Bool) : ProtocolValidationResult × Option ReplayWindow :=
  let result := envelopeResult envelope replayWindow
  if result.accepted && rememberAccepted then
    (result, replayWindow.map (·.remember envelope.messageId))
  else (result, replayWindow)

def ProtocolValidationCode.toText : ProtocolValidationCode → Text
  | .accepted => utf8 "accepted"
  | .invalidProtocol => utf8 "invalid_protocol"
  | .unknownType => utf8 "unknown_type"
  | .invalidMessageId => utf8 "invalid_message_id"
  | .duplicateMessageId => utf8 "duplicate_message_id"
  | .invalidSentAt => utf8 "invalid_sent_at"
  | .expectedRevisionRequired => utf8 "expected_revision_required"
  | .envelopeTooLarge => utf8 "envelope_too_large"

end DawnDock
