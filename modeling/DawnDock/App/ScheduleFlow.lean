import DawnDock.App.ScheduleExchange

/-!
The review flow over the exchange (`schedule_flow_controller.dart`). An operation gives
what it returns, or the error that escapes from it, beside the controller it leaves.
-/

namespace DawnDock.App

inductive ScheduleFlowPhase where
  | idle | review | previewPending | confirmationRequired | applyPending | needsRefresh
  | applied | refused
deriving DecidableEq, Repr

structure ScheduleFlowState where
  phase : ScheduleFlowPhase
  diff : Option ScheduleDiff
  code : Option DartString
  conflictRevision : Option Int64

namespace ScheduleFlowState

def canPreview (state : ScheduleFlowState) : Bool := state.phase = .review

def canConfirm (state : ScheduleFlowState) : Bool := state.phase = .confirmationRequired

def canCancel (state : ScheduleFlowState) : Bool :=
  match state.phase with
  | .review | .previewPending | .confirmationRequired | .refused => true
  | _ => false

/-- A state without a diff. -/
def plain (phase : ScheduleFlowPhase) (code : Option DartString) : ScheduleFlowState :=
  { phase, diff := none, code, conflictRevision := none }

end ScheduleFlowState

structure ScheduleFlowController where
  exchange : ScheduleExchange
  state : ScheduleFlowState

namespace ScheduleFlowController

def create : ScheduleFlowController :=
  { exchange := .create, state := .plain .idle none }

/-- `_move` -/
def move (controller : ScheduleFlowController) (phase : ScheduleFlowPhase)
    (code : Option DartString) : ScheduleFlowController :=
  { controller with
    state := { phase, diff := controller.state.diff, code, conflictRevision := none } }

/-- `on ArgumentError` -/
def isArgumentError : DartError → Bool
  | .argumentError _ | .argumentValue _ _ | .rangeError => true
  | _ => false

/-- The phases in which a new review is allowed. -/
def reviewable : List ScheduleFlowPhase := [.idle, .review, .refused, .applied]

def review (controller : ScheduleFlowController) (store : DeviceScheduleStore)
    (proposal : List AlarmDraft) : Except DartError Bool × ScheduleFlowController :=
  if !reviewable.contains controller.state.phase then (.ok false, controller)
  else
    match diffSchedule store.committed proposal store.knownRevision with
    | .ok diff =>
      (.ok true, {
        exchange := .create
        state := { phase := .review, diff := some diff, code := none, conflictRevision := none } })
    | .error error =>
      if isArgumentError error then
        (.ok false, {
          exchange := .create
          state := .plain .refused (some (utf16 "invalid_proposal")) })
      else (.error error, { controller with exchange := .create })

section Operations

variable {δ : Type} [Double δ]

variable (δ) in
/-- `ScheduleExchange(_store)..beginPreview(diff)` -/
def beginFresh (store : DeviceScheduleStore) (diff : ScheduleDiff) :
    Except DartError ScheduleExchange :=
  match ScheduleExchange.create.beginPreview δ store diff with
  | (.ok (), exchange) => .ok exchange
  | (.error error, _) => .error error

def requestPreview (controller : ScheduleFlowController) (store : DeviceScheduleStore)
    (messageId : DartString) (sentAt : DateTime) :
    Except DartError (Option (Entries δ)) × ScheduleFlowController :=
  if !controller.state.canPreview then (.ok none, controller)
  else
    match controller.state.diff with
    | none => (.error .typeError, controller)
    | some diff =>
      if store.knownRevision ≠ diff.expectedRevision then
        (.ok none, { controller with state := .plain .refused (some (utf16 "mirror_changed")) })
      else
        match beginFresh δ store diff with
        | .error error => (.error error, controller)
        | .ok exchange =>
          match exchange.buildPreview messageId sentAt with
          | (.ok request, exchange) =>
            (.ok (some request), move { controller with exchange } .previewPending none)
          | (.error (.exchangeReject code _), exchange) =>
            (.ok none, move { controller with exchange } .review (some (utf16 code)))
          | (.error error, exchange) => (.error error, { controller with exchange })

def receiveToken (controller : ScheduleFlowController) (token : DartString) :
    Except DartError Bool × ScheduleFlowController :=
  if controller.state.phase ≠ .previewPending then (.ok false, controller)
  else
    match controller.exchange.receiveApplyToken token with
    | (.ok (), exchange) =>
      (.ok true, move { controller with exchange } .confirmationRequired none)
    | (.error error, exchange) =>
      if isArgumentError error then
        (.ok false, move { controller with exchange } .previewPending
          (some (utf16 "invalid_apply_token")))
      else (.error error, { controller with exchange })

def confirmApply (controller : ScheduleFlowController) (store : DeviceScheduleStore)
    (messageId : DartString) (sentAt : DateTime) :
    Except DartError (Option (Entries δ)) × ScheduleFlowController :=
  if !controller.state.canConfirm then (.ok none, controller)
  else
    match controller.state.diff with
    | none => (.error .typeError, controller)
    | some diff =>
      if store.knownRevision ≠ diff.expectedRevision then
        match controller.exchange.abort with
        | (.error error, exchange) => (.error error, { controller with exchange })
        | (.ok (), exchange) =>
          (.ok none, { exchange, state := .plain .refused (some (utf16 "mirror_changed")) })
      else
        match controller.exchange.buildApply store messageId sentAt with
        | (.ok request, exchange) =>
          (.ok (some request), move { controller with exchange } .applyPending none)
        | (.error (.exchangeReject code _), exchange) =>
          (.ok none, move { controller with exchange } .confirmationRequired (some (utf16 code)))
        | (.error error, exchange) => (.error error, { controller with exchange })

/-- What `receive` leaves. -/
abbrev Received :=
  Except DartError (Option IngestResult) × ScheduleFlowController × DeviceScheduleStore

/-- `payload['type'] == name` -/
def hasType (payload : Entries δ) (name : String) : Bool :=
  isString (· == utf16 name) (index payload (utf16 "type"))

/-- The state after the result of an ingest. -/
def settle (controller : ScheduleFlowController) (result : IngestResult) :
    ScheduleFlowController :=
  match result.disposition with
  | .applied => controller.move .applied none
  | .conflict =>
    { controller with
      state := {
        phase := .needsRefresh
        diff := none
        code := result.code
        conflictRevision := result.currentRevision } }
  | .invalid | .rejected =>
    controller.move (if controller.exchange.phase = .idle then .refused else .applyPending)
      result.code

def receive (controller : ScheduleFlowController) (store : DeviceScheduleStore)
    (payload : Entries δ) (now : DateTime) : Received :=
  if controller.state.phase ≠ .applyPending then (.ok none, controller, store)
  else if !hasType payload "event.syncReceipt" && !hasType payload "error.response" then
    (.ok (some {
        disposition := .invalid
        code := some (utf16 "unexpected_response")
        currentRevision := none }),
      controller.move .applyPending (some (utf16 "unexpected_response")), store)
  else
    match controller.state.diff with
    | none => (.error .typeError, controller, store)
    | some diff =>
      if store.knownRevision ≠ diff.expectedRevision then
        (.ok (some {
            disposition := .rejected
            code := some (utf16 "mirror_changed")
            currentRevision := none }),
          controller.move .applyPending (some (utf16 "mirror_changed")), store)
      else
        match controller.exchange.ingest store payload now with
        | (.error error, exchange, store) => (.error error, { controller with exchange }, store)
        | (.ok result, exchange, store) =>
          (.ok (some result), settle { controller with exchange } result, store)

def acknowledgeRefresh (controller : ScheduleFlowController) (store : DeviceScheduleStore) :
    Except DartError Bool × ScheduleFlowController :=
  if controller.state.phase ≠ .needsRefresh ∨ controller.state.conflictRevision = none ∨
      some store.knownRevision ≠ controller.state.conflictRevision then
    (.ok false, controller)
  else
    match controller.exchange.rebase store with
    | (.error error, exchange) => (.error error, { controller with exchange })
    | (.ok (), exchange) => (.ok true, { exchange, state := .plain .idle none })

def cancel (controller : ScheduleFlowController) : Except DartError Bool × ScheduleFlowController :=
  if !controller.state.canCancel then (.ok false, controller)
  else (.ok true, { exchange := .create, state := .plain .idle none })

end Operations

end ScheduleFlowController

end DawnDock.App
