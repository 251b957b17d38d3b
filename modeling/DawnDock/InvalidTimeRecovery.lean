import DawnDock.CommittedScheduleEvaluator

/-!
`reconcile_after_time_valid` (`invalid_time_recovery.cpp`): every enabled
occurrence crossed while time was invalid is classified in one journal commit.
-/

namespace DawnDock

open AtomicProgram

inductive InvalidTimeRecoveryStatus where
  | reconciled | nothingCrossed | invalidTime | activeConflict | journalCapacity | emptyStore
  | invalidStore | ioError | persistenceConflict | persistenceError
deriving DecidableEq, Repr

structure RecoveredOccurrence where
  alarmId : Text
  occurrenceId : Text
  outcome : EvaluationStatus := .missed
  latenessSeconds : Int64 := 0
deriving DecidableEq, Repr

structure InvalidTimeRecoveryResult where
  status : InvalidTimeRecoveryStatus := .persistenceError
  scheduleRevision : UInt64 := 0
  generation : UInt64 := 0
  crossed : List RecoveredOccurrence := []
  startAlert : Bool := false
  ringingOccurrenceId : Text := []
  journalCommitted : Bool := false
deriving DecidableEq, Repr

def isTerminal (state : PersistentAlarmState) (occurrenceId : Text) : Bool :=
  state.terminal.any (·.occurrenceId == occurrenceId)

def atOrBelowWatermark (state : PersistentAlarmState) (alarmId : Text)
    (scheduledUtcSeconds : Int64) : Bool :=
  (findHighWatermark state alarmId).any (scheduledUtcSeconds ≤ ·.scheduledUtcSeconds)

/-- An enabled alarm whose instant passed without a journal record. -/
def crossedNow (state : PersistentAlarmState) (wallUtcSeconds : Int64)
    (alarm : StoredAlarmDefinition) : Bool :=
  alarm.enabled && alarm.scheduledUtcSeconds ≤ wallUtcSeconds &&
    !isTerminal state (makeOccurrenceId alarm.definition) &&
    !atOrBelowWatermark state alarm.id alarm.scheduledUtcSeconds

/-- The crossed alarms by scheduled instant, then alarm id. A candidate of the
source is the alarm with its occurrence id. -/
def crossedCandidates (snapshot : ScheduleSnapshot) (wallUtcSeconds : Int64) :
    List StoredAlarmDefinition :=
  sortAlarms (snapshot.alarms.filter (crossedNow snapshot.occurrenceState wallUtcSeconds))

/-- Every candidate but the newest is missed. -/
def journalMissed (state : PersistentAlarmState) (alarm : StoredAlarmDefinition) :
    Option PersistentAlarmState :=
  journalTerminal state alarm.id (makeOccurrenceId alarm.definition) alarm.scheduledUtcSeconds
    .invalidTime

/-- The whole batch on a copy of the journal: `none` when the watermark table
cannot take it. -/
def reconcileJournal (state : PersistentAlarmState) (older : List StoredAlarmDefinition)
    (newest : StoredAlarmDefinition) (newestRings : Bool)
    (wallUtcSeconds monotonicSeconds : Int64) : Option PersistentAlarmState := do
  let journal ← older.foldlM journalMissed state
  if newestRings then
    guard (journalCanAccept journal newest.id = true)
    beginRecoveredRing journal newest.id (makeOccurrenceId newest.definition)
      newest.scheduledUtcSeconds wallUtcSeconds monotonicSeconds
  else journalMissed journal newest

def missedRecord (alarm : StoredAlarmDefinition) : RecoveredOccurrence :=
  { alarmId := alarm.id, occurrenceId := makeOccurrenceId alarm.definition }

def reconciledRecords (older : List StoredAlarmDefinition) (newest : StoredAlarmDefinition)
    (newestRings : Bool) (lateness : Int64) : List RecoveredOccurrence :=
  older.map missedRecord ++
    [{ missedRecord newest with
        outcome := if newestRings then .ringing else .missed, latenessSeconds := lateness }]

def unloadedRecoveryStatus (status : LoadStatus) : InvalidTimeRecoveryStatus :=
  if status = .ioError then .ioError else if status = .empty then .emptyStore else .invalidStore

def reconcileAfterTimeValid (wallUtcSeconds monotonicSeconds : Int64) (timeValid : Bool) :
    Program StoreReply InvalidTimeRecoveryResult := do
  if !timeValid then return { status := .invalidTime }
  else
    let loaded ← AtomicScheduleStore.load
    if loaded.status ≠ .loaded then return { status := unloadedRecoveryStatus loaded.status }
    else
      let result : InvalidTimeRecoveryResult :=
        { scheduleRevision := loaded.snapshot.revision, generation := loaded.generation }
      let state := loaded.snapshot.occurrenceState
      if state.active.isSome then return { result with status := .activeConflict }
      else
        let crossed := crossedCandidates loaded.snapshot wallUtcSeconds
        match crossed.getLast? with
        | none => return { result with status := .nothingCrossed }
        | some newest =>
            match checkedElapsed wallUtcSeconds newest.scheduledUtcSeconds with
            | none => return { result with status := .invalidTime }
            | some lateness =>
                let newestRings := lateness ≤ kLateGraceSeconds
                match reconcileJournal state crossed.dropLast newest newestRings wallUtcSeconds
                  monotonicSeconds with
                | none => return { result with status := .journalCapacity }
                | some journal =>
                    let committed ← AtomicScheduleStore.saveOccurrenceState journal
                      loaded.snapshot.revision loaded.generation
                    let result := { result with generation := committed.generation }
                    if !committed.status.committed then
                      return { result with
                        status := if committed.status.isConflict then .persistenceConflict
                          else .persistenceError }
                    else
                      return { result with
                        status := .reconciled
                        crossed := reconciledRecords crossed.dropLast newest newestRings lateness
                        journalCommitted := true
                        startAlert := newestRings
                        ringingOccurrenceId :=
                          if newestRings then makeOccurrenceId newest.definition else [] }

end DawnDock
