import DawnDock.CommittedScheduleEvaluator

/-!
`disable_committed_alarm` (`committed_alarm_disable.cpp`): phase one dismisses an
active occurrence of the alarm through the journal, phase two commits the
definition with `enabled = false` as a new schedule revision.
-/

namespace DawnDock

open AtomicProgram

inductive CommittedDisableStatus where
  | disabled | alarmNotFound | alreadyDisabled | emptyStore | invalidStore | ioError
  | persistenceConflict | persistenceError
deriving DecidableEq, Repr

structure CommittedAlarmDisableResult where
  status : CommittedDisableStatus := .persistenceError
  occurrenceId : Text := []
  journalCommitted : Bool := false
  definitionCommitted : Bool := false
  stopAlert : Bool := false
  scheduleRevision : UInt64 := 0
  generation : UInt64 := 0
deriving DecidableEq, Repr

def unloadedDisableStatus (status : LoadStatus) : CommittedDisableStatus :=
  if status = .ioError then .ioError else if status = .empty then .emptyStore else .invalidStore

def failedDisableStatus (status : StoreStatus) : CommittedDisableStatus :=
  if status.isConflict then .persistenceConflict else .persistenceError

def disableAlarm (alarmId : Text) (alarms : List StoredAlarmDefinition) :
    List StoredAlarmDefinition :=
  alarms.map fun alarm => if alarm.id = alarmId then { alarm with enabled := false } else alarm

/-- The schedule phase two saves: the loaded one, one revision later, with the
alarm disabled. -/
def disabledSnapshot (snapshot : ScheduleSnapshot) (alarmId : Text) : ScheduleSnapshot :=
  { snapshot with
    revision := snapshot.revision + 1, alarms := disableAlarm alarmId snapshot.alarms }

/-- Phase one. `error` ends the call. -/
def dismissForDisable (alarmId : Text) (loaded : LoadResult)
    (result : CommittedAlarmDisableResult) :
    Program StoreReply (Except CommittedAlarmDisableResult CommittedAlarmDisableResult) := do
  match loaded.snapshot.occurrenceState.active with
  | none => return .ok result
  | some active =>
      if active.alarmId ≠ alarmId then return .ok result
      else
        let result := { result with occurrenceId := active.occurrenceId }
        let dismissed := dismissActive loaded.snapshot.occurrenceState active.occurrenceId true
        if !dismissed.1.persistBeforeEffects || !dismissed.1.stopAlert then
          return .error { result with status := .persistenceError }
        else
          let committed ← AtomicScheduleStore.saveOccurrenceState dismissed.2
            loaded.snapshot.revision loaded.generation
          let result := { result with generation := committed.generation }
          if !committed.status.committed then
            return .error { result with
              status := failedDisableStatus committed.status, stopAlert := false }
          else return .ok { result with journalCommitted := true, stopAlert := true }

/-- Phase two. -/
def saveDisabled (alarmId : Text) (loaded : LoadResult) (enabled : Bool)
    (result : CommittedAlarmDisableResult) : Program StoreReply CommittedAlarmDisableResult := do
  if !enabled then
    return { result with
      status := if result.journalCommitted then .disabled else .alreadyDisabled }
  else
    let disabled := disabledSnapshot loaded.snapshot alarmId
    if disabled.revision = 0 then return { result with status := .persistenceError }
    else
      let committed ← AtomicScheduleStore.save disabled loaded.snapshot.revision
      let result := { result with generation := committed.generation }
      if committed.status.committed then
        return { result with
          definitionCommitted := true, scheduleRevision := disabled.revision, status := .disabled }
      else return { result with status := failedDisableStatus committed.status }

def disableCommittedAlarm (alarmId : Text) : Program StoreReply CommittedAlarmDisableResult := do
  let loaded ← AtomicScheduleStore.load
  if loaded.status ≠ .loaded then return { status := unloadedDisableStatus loaded.status }
  else
    let result : CommittedAlarmDisableResult :=
      { scheduleRevision := loaded.snapshot.revision, generation := loaded.generation }
    match loaded.snapshot.alarms.find? (·.id == alarmId) with
    | none => return { result with status := .alarmNotFound }
    | some target =>
        match ← dismissForDisable alarmId loaded result with
        | .error result => return result
        | .ok result => saveDisabled alarmId loaded target.enabled result

end DawnDock
