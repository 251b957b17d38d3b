import DawnDock.InvalidTimeRecovery

/-!
`run_runtime_tick` (`runtime_coordinator.cpp`): one observation drives the
invalid-time latch, boot-gated recovery of the active occurrence, the
reconciliation of an invalid interval and the committed evaluation.

The tick takes the coordinator state and returns the new one beside its result.
-/

namespace DawnDock

open AtomicProgram

structure RuntimeTickObservation where
  timeValid : Bool
  wallUtcSeconds : Int64
  monotonicSeconds : Int64
  bootId : Text
deriving DecidableEq, Repr

structure RuntimeCoordinatorState where
  lastHandledBootId : Text := []
  reconciliationPending : Bool := false
deriving DecidableEq, Repr

inductive RuntimeTickStatus where
  | evaluated | frozenInvalidTime | reconciliationBlocked | emptyStore | invalidStore | ioError
  | persistenceConflict | persistenceError
deriving DecidableEq, Repr

inductive RuntimeEffectStage where
  | evaluation | activeLifecycle | reconciliation
deriving DecidableEq, Repr

structure RuntimeTickEffect where
  alarmId : Text
  occurrenceId : Text
  status : EvaluationStatus := .armed
  startAlert : Bool := false
  stopAlert : Bool := false
  late : Bool := false
  latenessSeconds : Int64 := 0
  recoveredAfterReboot : Bool := false
  stage : RuntimeEffectStage := .evaluation
deriving DecidableEq, Repr

structure RuntimeTickResult where
  status : RuntimeTickStatus := .evaluated
  scheduleRevision : UInt64 := 0
  generation : UInt64 := 0
  reconciliationAttempted : Bool := false
  reconciliationStatus : InvalidTimeRecoveryStatus := .nothingCrossed
  reconciliationCrossed : List RecoveredOccurrence := []
  effects : List RuntimeTickEffect := []
deriving DecidableEq, Repr

def statusFromEvaluation : CommittedEvaluationStatus → RuntimeTickStatus
  | .evaluated => .evaluated
  | .invalidTime => .frozenInvalidTime
  | .emptyStore => .emptyStore
  | .invalidStore => .invalidStore
  | .ioError => .ioError
  | .persistenceConflict => .persistenceConflict
  | .persistenceError => .persistenceError

def reconciliationEffect (recovery : InvalidTimeRecoveryResult) (crossed : RecoveredOccurrence) :
    RuntimeTickEffect :=
  let effect : RuntimeTickEffect :=
    { alarmId := crossed.alarmId, occurrenceId := crossed.occurrenceId, status := crossed.outcome
      stage := .reconciliation }
  if recovery.startAlert && crossed.occurrenceId == recovery.ringingOccurrenceId then
    { effect with
      startAlert := true, late := crossed.latenessSeconds > 0
      latenessSeconds := crossed.latenessSeconds }
  else effect

def statusFromRecovery : InvalidTimeRecoveryStatus → RuntimeTickStatus
  | .reconciled | .nothingCrossed | .activeConflict => .evaluated
  | .invalidTime | .journalCapacity => .reconciliationBlocked
  | .emptyStore => .emptyStore
  | .invalidStore => .invalidStore
  | .ioError => .ioError
  | .persistenceConflict => .persistenceConflict
  | .persistenceError => .persistenceError

def applyReconciliationOutcome (recovery : InvalidTimeRecoveryResult)
    (result : RuntimeTickResult) : RuntimeTickResult :=
  { result with
    reconciliationStatus := recovery.status
    reconciliationCrossed := recovery.crossed
    generation := recovery.generation
    status := statusFromRecovery recovery.status
    effects := result.effects ++
      if recovery.status = .reconciled then recovery.crossed.map (reconciliationEffect recovery)
      else [] }

def reconciliationClearsLatch (recovery : InvalidTimeRecoveryResult) : Bool :=
  recovery.status == .reconciled || recovery.status == .nothingCrossed

/-- Move the monotonic anchor of a resumed occurrence into the new boot's clock. -/
def reanchorActive (state : PersistentAlarmState) (wallUtcSeconds monotonicSeconds : Int64) :
    PersistentAlarmState :=
  { state with
    active := state.active.map fun active =>
      { active with
        firstRingMonotonicSeconds :=
          monotonicSeconds - (wallUtcSeconds - active.firstRingUtcSeconds) } }

/-- What settling does to the journal before anything is committed. -/
def settleTransition (state : PersistentAlarmState) (observation : RuntimeTickObservation)
    (bootPending : Bool) : EvaluationResult × PersistentAlarmState :=
  if bootPending then
    let recovered := recoverAfterReboot state observation.wallUtcSeconds observation.bootId
    (recovered.1,
      reanchorActive recovered.2 observation.wallUtcSeconds observation.monotonicSeconds)
  else advanceActive state observation.monotonicSeconds

def settleEffect (alarmId : Text) (settled : EvaluationResult) : RuntimeTickEffect :=
  { alarmId, occurrenceId := settled.occurrenceId, status := settled.status
    startAlert := settled.startAlert, stopAlert := settled.stopAlert
    recoveredAfterReboot := settled.recoveredAfterReboot, stage := .activeLifecycle }

/-- Settle a persisted active occurrence. `error` is a frozen or failed stage. -/
def settleActiveOccurrence (loaded : LoadResult) (observation : RuntimeTickObservation)
    (bootPending : Bool) (result : RuntimeTickResult) :
    Program StoreReply (Except RuntimeTickResult RuntimeTickResult) := do
  match loaded.snapshot.occurrenceState.active with
  | none => return .ok result
  | some active =>
      let settled := settleTransition loaded.snapshot.occurrenceState observation bootPending
      let effects := result.effects ++ [settleEffect active.alarmId settled.1]
      if settled.1.status = .invalidTime then
        return .error { result with status := .frozenInvalidTime }
      else if settled.1.persistBeforeEffects then
        let committed ← AtomicScheduleStore.saveOccurrenceState settled.2
          loaded.snapshot.revision loaded.generation
        if !committed.status.committed then
          return .error { result with
            status := if committed.status.isConflict then .persistenceConflict
              else .persistenceError }
        else return .ok { result with generation := committed.generation, effects }
      else return .ok { result with effects }

def unloadedTickStatus (status : LoadStatus) : RuntimeTickStatus :=
  if status = .ioError then .ioError else if status = .empty then .emptyStore else .invalidStore

/-- Load and settle: the stage in front of reconciliation and of the first
evaluation of a boot. -/
def settleLoaded (observation : RuntimeTickObservation) (bootPending : Bool)
    (result : RuntimeTickResult) :
    Program StoreReply (Except RuntimeTickResult RuntimeTickResult) := do
  let loaded ← AtomicScheduleStore.load
  if loaded.status ≠ .loaded then
    return .error { result with status := unloadedTickStatus loaded.status }
  else
    settleActiveOccurrence loaded observation bootPending
      { result with
        scheduleRevision := loaded.snapshot.revision, generation := loaded.generation }

def evaluationEffect (alarm : CommittedAlarmEvaluation) : RuntimeTickEffect :=
  { alarmId := alarm.alarmId, occurrenceId := alarm.result.occurrenceId
    status := alarm.result.status, startAlert := alarm.result.startAlert
    stopAlert := alarm.result.stopAlert, late := alarm.result.late
    latenessSeconds := alarm.result.latenessSeconds
    recoveredAfterReboot := alarm.result.recoveredAfterReboot
    stage := if alarm.fromActiveOccurrence then .activeLifecycle else .evaluation }

def isBootPending (state : RuntimeCoordinatorState) (observation : RuntimeTickObservation) :
    Bool :=
  !observation.bootId.isEmpty && state.lastHandledBootId != observation.bootId

/-- The coordinator state once a stage settled. -/
def handleBoot (state : RuntimeCoordinatorState) (observation : RuntimeTickObservation)
    (bootPending : Bool) : RuntimeCoordinatorState :=
  if bootPending then { state with lastHandledBootId := observation.bootId } else state

/-- The tick while a reconciliation is owed. -/
def latchedTick (state : RuntimeCoordinatorState) (observation : RuntimeTickObservation) :
    Program StoreReply (RuntimeTickResult × RuntimeCoordinatorState) := do
  let bootPending := isBootPending state observation
  match ← settleLoaded observation bootPending { reconciliationAttempted := true } with
  | .error result => return (result, state)
  | .ok result =>
      let state := handleBoot state observation bootPending
      let recovery ← reconcileAfterTimeValid observation.wallUtcSeconds
        observation.monotonicSeconds true
      return (applyReconciliationOutcome recovery result,
        if reconciliationClearsLatch recovery then { state with reconciliationPending := false }
        else state)

/-- The committed evaluation of a tick. -/
def evaluationTick (observation : RuntimeTickObservation) (result : RuntimeTickResult) :
    Program StoreReply RuntimeTickResult := do
  let evaluation ← evaluateCommittedSchedule observation.wallUtcSeconds
    observation.monotonicSeconds true []
  return { result with
    status := statusFromEvaluation evaluation.status
    scheduleRevision := evaluation.scheduleRevision
    generation := evaluation.generation
    effects := result.effects ++ evaluation.alarms.map evaluationEffect }

def runRuntimeTick (state : RuntimeCoordinatorState) (observation : RuntimeTickObservation) :
    Program StoreReply (RuntimeTickResult × RuntimeCoordinatorState) := do
  if !observation.timeValid then
    return ({ status := .frozenInvalidTime }, { state with reconciliationPending := true })
  else if state.reconciliationPending then latchedTick state observation
  else if isBootPending state observation then
    match ← settleLoaded observation true {} with
    | .error result => return (result, state)
    | .ok result =>
        let state := handleBoot state observation true
        return (← evaluationTick observation result, state)
  else return (← evaluationTick observation {}, state)

end DawnDock
