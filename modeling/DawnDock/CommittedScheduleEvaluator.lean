import DawnDock.Library.AtomicProgram
import DawnDock.ScheduleStore.Store
import Mathlib.Data.List.Sort

/-!
`evaluate_committed_schedule` (`committed_schedule_evaluator.cpp`): one load, the
active occurrence first, then every stored alarm in scheduled order. A result
that asks to be persisted is committed before the next one is computed, and a
failed commit ends the pass.
-/

namespace DawnDock

open AtomicProgram

inductive CommittedEvaluationStatus where
  | evaluated | invalidTime | emptyStore | invalidStore | ioError
  | persistenceConflict | persistenceError
deriving DecidableEq, Repr

structure CommittedAlarmEvaluation where
  alarmId : Text
  result : EvaluationResult
  journalCommitted : Bool := false
  fromActiveOccurrence : Bool := false
deriving DecidableEq, Repr

structure CommittedScheduleEvaluation where
  status : CommittedEvaluationStatus := .evaluated
  scheduleRevision : UInt64 := 0
  generation : UInt64 := 0
  alarms : List CommittedAlarmEvaluation := []
deriving DecidableEq, Repr

def alarmIdFromOccurrenceId (occurrenceId : Text) : Text := occurrenceId.takeWhile (· != colon)

def StoredAlarmDefinition.definition (alarm : StoredAlarmDefinition) : AlarmDefinition :=
  { id := alarm.id, scheduleRevision := alarm.scheduleRevision, enabled := alarm.enabled
    scheduledUtcSeconds := alarm.scheduledUtcSeconds }

/-- The comparison `std::sort` is given: scheduled instant, then alarm id by bytes. -/
def scheduledBefore (left right : StoredAlarmDefinition) : Bool :=
  if left.scheduledUtcSeconds ≠ right.scheduledUtcSeconds then
    left.scheduledUtcSeconds < right.scheduledUtcSeconds
  else left.id < right.id

/-- `std::sort`; the ids of a valid schedule are distinct, so the order is total. -/
def sortAlarms (alarms : List StoredAlarmDefinition) : List StoredAlarmDefinition :=
  alarms.insertionSort fun left right => !scheduledBefore right left

def CommittedScheduleEvaluation.push (evaluation : CommittedScheduleEvaluation)
    (alarm : CommittedAlarmEvaluation) : CommittedScheduleEvaluation :=
  { evaluation with alarms := evaluation.alarms ++ [alarm] }

/-- Commit what a result asks to persist. `error` is the evaluation a failed
commit ends with; its alert edges are dropped. -/
def commitOccurrenceTransition (occurrenceState : PersistentAlarmState)
    (evaluation : CommittedScheduleEvaluation) (alarm : CommittedAlarmEvaluation) :
    Program StoreReply (Except CommittedScheduleEvaluation
      (CommittedScheduleEvaluation × CommittedAlarmEvaluation)) := do
  if !alarm.result.persistBeforeEffects then return .ok (evaluation, alarm)
  else
    let committed ← AtomicScheduleStore.saveOccurrenceState occurrenceState
      evaluation.scheduleRevision evaluation.generation
    let evaluation := { evaluation with generation := committed.generation }
    if !committed.status.committed then
      let alarm := { alarm with result := { alarm.result with startAlert := false, stopAlert := false } }
      return .error { evaluation.push alarm with
        status := if committed.status.isConflict then .persistenceConflict else .persistenceError }
    else
      let alarm := { alarm with
        journalCommitted := true
        result := { alarm.result with persistBeforeEffects := false } }
      if committed.status = .unchanged then
        return .ok (evaluation, { alarm with
          result := { alarm.result with status := .duplicate, startAlert := false, stopAlert := false } })
      else return .ok (evaluation, alarm)

/-- The stage both passes share: an unusable time ends the evaluation, anything
else is committed and recorded. -/
def settleEvaluation (occurrenceState : PersistentAlarmState)
    (evaluation : CommittedScheduleEvaluation) (alarm : CommittedAlarmEvaluation) :
    Program StoreReply (Except CommittedScheduleEvaluation CommittedScheduleEvaluation) := do
  if alarm.result.status = .invalidTime then
    return .error { evaluation.push alarm with status := .invalidTime }
  else
    match ← commitOccurrenceTransition occurrenceState evaluation alarm with
    | .error evaluation => return .error evaluation
    | .ok (evaluation, alarm) => return .ok (evaluation.push alarm)

/-- The active occurrence: recovered when a boot id is given, advanced otherwise. -/
def activeTransition (state : PersistentAlarmState) (wallUtcSeconds monotonicSeconds : Int64)
    (bootId : Text) : EvaluationResult × PersistentAlarmState :=
  if bootId.isEmpty then advanceActive state monotonicSeconds
  else recoverAfterReboot state wallUtcSeconds bootId

def evaluateAlarms (wallUtcSeconds monotonicSeconds : Int64) :
    List StoredAlarmDefinition → PersistentAlarmState → CommittedScheduleEvaluation →
      Program StoreReply CommittedScheduleEvaluation
  | [], _, evaluation => return evaluation
  | stored :: rest, occurrenceState, evaluation => do
      let due := evaluateDue stored.definition occurrenceState wallUtcSeconds monotonicSeconds true
      match ← settleEvaluation due.2 evaluation { alarmId := stored.id, result := due.1 } with
      | .error evaluation => return evaluation
      | .ok evaluation => evaluateAlarms wallUtcSeconds monotonicSeconds rest due.2 evaluation

/-- The status of a load that did not return a record. -/
def unloadedEvaluationStatus (status : LoadStatus) : CommittedEvaluationStatus :=
  if status = .empty then .emptyStore else if status = .ioError then .ioError else .invalidStore

def evaluateCommittedSchedule (wallUtcSeconds monotonicSeconds : Int64) (timeValid : Bool)
    (bootId : Text) : Program StoreReply CommittedScheduleEvaluation := do
  if !timeValid then return { status := .invalidTime }
  else
    let loaded ← AtomicScheduleStore.load
    if loaded.status ≠ .loaded then return { status := unloadedEvaluationStatus loaded.status }
    else
      let evaluation : CommittedScheduleEvaluation :=
        { scheduleRevision := loaded.snapshot.revision, generation := loaded.generation }
      let occurrenceState := loaded.snapshot.occurrenceState
      let alarms := sortAlarms loaded.snapshot.alarms
      match occurrenceState.active with
      | none => evaluateAlarms wallUtcSeconds monotonicSeconds alarms occurrenceState evaluation
      | some active =>
          let fromId := alarmIdFromOccurrenceId active.occurrenceId
          let alarmId := if fromId.isEmpty then active.occurrenceId else fromId
          let settled := activeTransition occurrenceState wallUtcSeconds monotonicSeconds bootId
          match ← settleEvaluation settled.2 evaluation
            { alarmId, result := settled.1, fromActiveOccurrence := true } with
          | .error evaluation => return evaluation
          | .ok evaluation =>
              evaluateAlarms wallUtcSeconds monotonicSeconds alarms settled.2 evaluation

end DawnDock
