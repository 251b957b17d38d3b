import Mathlib.Data.List.Basic

/-!
The alarm engine (`alarm_engine.cpp`): the occurrence journal of one device and
the pure transitions on it.

The C++ functions mutate a `PersistentAlarmState &` and return an
`EvaluationResult`; here each returns the result together with the new state.
Strings are byte strings: sizes, comparisons and character checks in the source
are all by byte. Fixed-width integers keep their width (`Int64`, `UInt64`,
`UInt8`), so comparisons and guards are the machine's.
-/

namespace DawnDock

/-- A `std::string`. -/
abbrev Text := List UInt8

/-- A text as the source stores it, a string constant for one. -/
def utf8 (text : String) : Text := text.toUTF8.data.toList

theorem utf8_inj {first second : String} : utf8 first = utf8 second ↔ first = second := by
  constructor
  · intro same
    exact String.toByteArray_inj.mp (ByteArray.ext (Array.toList_inj.mp same))
  · exact congrArg utf8

def kLateGraceSeconds : Int64 := 600
def kMinimumSnoozeSeconds : Int64 := 60
def kMaximumSnoozeSeconds : Int64 := 1800
def kOccurrenceLifetimeSeconds : Int64 := 3600
def kMaximumSnoozes : UInt8 := 6
def kRecentTerminalRetention : Nat := 32
def kTerminalHighWatermarkCapacity : Nat := 32

inductive EvaluationStatus where
  | disabled | armed | ringing | snoozed | dismissed | timedOut | missed
  | invalidTime | duplicate | conflict | invalidRequest | snoozeLimitReached
deriving DecidableEq, Repr

inductive TerminalReason where
  | dismissed | alarmDisabled | timedOut | forwardJump | invalidTime | prolongedPowerOff
deriving DecidableEq, Repr

structure AlarmDefinition where
  id : Text
  scheduleRevision : UInt64
  enabled : Bool
  scheduledUtcSeconds : Int64
deriving DecidableEq, Repr

structure ActiveOccurrence where
  alarmId : Text
  occurrenceId : Text
  scheduledUtcSeconds : Int64
  firstRingUtcSeconds : Int64
  firstRingMonotonicSeconds : Int64
  snoozeDeadlineMonotonicSeconds : Option Int64 := none
  snoozeCount : UInt8 := 0
  recoveredAfterReboot : Bool := false
  lastRecoveryBootId : Text := []
deriving DecidableEq, Repr

structure TerminalOccurrence where
  occurrenceId : Text
  reason : TerminalReason
deriving DecidableEq, Repr

structure TerminalHighWatermark where
  alarmId : Text
  scheduledUtcSeconds : Int64
deriving DecidableEq, Repr

/-- The occurrence journal. -/
structure PersistentAlarmState where
  active : Option ActiveOccurrence := none
  terminal : List TerminalOccurrence := []
  terminalHighWatermarks : List TerminalHighWatermark := []
deriving DecidableEq, Repr

structure EvaluationResult where
  status : EvaluationStatus := .armed
  occurrenceId : Text := []
  startAlert : Bool := false
  stopAlert : Bool := false
  persistBeforeEffects : Bool := false
  late : Bool := false
  latenessSeconds : Int64 := 0
  recoveredAfterReboot : Bool := false
deriving DecidableEq, Repr

/-! ### Guarded arithmetic -/

/-- `checked_add`: the sum, unless it leaves the 64-bit range. -/
def checkedAdd (left right : Int64) : Option Int64 :=
  if (right > 0 ∧ left > Int64.maxValue - right) ∨ (right < 0 ∧ left < Int64.minValue - right) then
    none
  else
    some (left + right)

/-- `checked_elapsed`: the nonnegative, representable `now - start`. -/
def checkedElapsed (now start : Int64) : Option Int64 :=
  if now < start ∨ (start < 0 ∧ now > Int64.maxValue + start) then none else some (now - start)

def invalidTimeResult (occurrenceId : Text) : EvaluationResult :=
  { status := .invalidTime, occurrenceId }

/-! ### Occurrence identity -/

/-- `std::to_string` of an unsigned integer. -/
def decimal (value : Nat) : Text := (Nat.toDigits 10 value).map fun c => UInt8.ofNat c.toNat

/-- `std::to_string` of a signed integer. -/
def signedDecimal (value : Int) : Text :=
  if value < 0 then 0x2d :: decimal value.natAbs else decimal value.natAbs

/-- The separator `':'`. -/
def colon : UInt8 := 0x3a

def makeOccurrenceId (alarm : AlarmDefinition) : Text :=
  alarm.id ++ colon :: (decimal alarm.scheduleRevision.toNat ++
    colon :: signedDecimal alarm.scheduledUtcSeconds.toInt)

/-! ### The terminal list and the watermark table -/

def findHighWatermark (state : PersistentAlarmState) (alarmId : Text) :
    Option TerminalHighWatermark :=
  state.terminalHighWatermarks.find? (·.alarmId == alarmId)

def canTrackTerminal (state : PersistentAlarmState) (alarmId : Text) : Bool :=
  state.terminalHighWatermarks.any (·.alarmId == alarmId) ||
    state.terminalHighWatermarks.length < kTerminalHighWatermarkCapacity

/-- Raise the first entry of the alarm, or append one when there is none. -/
def raiseHighWatermark (alarmId : Text) (scheduledUtcSeconds : Int64) :
    List TerminalHighWatermark → List TerminalHighWatermark
  | [] => [⟨alarmId, scheduledUtcSeconds⟩]
  | existing :: rest =>
      if existing.alarmId == alarmId then
        (if scheduledUtcSeconds > existing.scheduledUtcSeconds then
          { existing with scheduledUtcSeconds } else existing) :: rest
      else existing :: raiseHighWatermark alarmId scheduledUtcSeconds rest

def recordTerminalHighWatermark (state : PersistentAlarmState) (alarmId : Text)
    (scheduledUtcSeconds : Int64) : PersistentAlarmState :=
  { state with
    terminalHighWatermarks :=
      raiseHighWatermark alarmId scheduledUtcSeconds state.terminalHighWatermarks }

/-- Append a terminal record unless its occurrence already has one; the oldest
records beyond the retention bound are evicted. -/
def appendTerminal (state : PersistentAlarmState) (occurrence : TerminalOccurrence) :
    PersistentAlarmState :=
  if state.terminal.any (·.occurrenceId == occurrence.occurrenceId) then state
  else
    let appended := state.terminal ++ [occurrence]
    { state with terminal := appended.drop (appended.length - kRecentTerminalRetention) }

/-! ### Transitions -/

def evaluateDue (alarm : AlarmDefinition) (state : PersistentAlarmState)
    (wallUtcSeconds monotonicSeconds : Int64) (timeValid : Bool) :
    EvaluationResult × PersistentAlarmState :=
  if !alarm.enabled then ({ status := .disabled }, state)
  else if !timeValid then ({ status := .invalidTime }, state)
  else if wallUtcSeconds < alarm.scheduledUtcSeconds then ({}, state)
  else
    let occurrenceId := makeOccurrenceId alarm
    if state.active.any (·.occurrenceId != occurrenceId) then
      ({ status := .conflict, occurrenceId }, state)
    else
      let alreadyActive := state.active.any (·.occurrenceId == occurrenceId)
      let atOrBelowTerminalHighWatermark := (findHighWatermark state alarm.id).any
        (alarm.scheduledUtcSeconds ≤ ·.scheduledUtcSeconds)
      let alreadyTerminal := state.terminal.any (·.occurrenceId == occurrenceId)
      if alreadyActive || alreadyTerminal || atOrBelowTerminalHighWatermark then
        ({ status := .duplicate, occurrenceId }, state)
      else if !canTrackTerminal state alarm.id then
        ({ status := .conflict, occurrenceId }, state)
      else
        match checkedElapsed wallUtcSeconds alarm.scheduledUtcSeconds with
        | none => (invalidTimeResult occurrenceId, state)
        | some lateness =>
            if lateness > kLateGraceSeconds then
              ({ status := .missed, occurrenceId, persistBeforeEffects := true,
                 latenessSeconds := lateness },
                appendTerminal
                  (recordTerminalHighWatermark state alarm.id alarm.scheduledUtcSeconds)
                  ⟨occurrenceId, .forwardJump⟩)
            else
              ({ status := .ringing, occurrenceId, startAlert := true,
                 persistBeforeEffects := true, late := lateness > 0,
                 latenessSeconds := lateness },
                { state with
                  active := some
                    { alarmId := alarm.id, occurrenceId
                      scheduledUtcSeconds := alarm.scheduledUtcSeconds
                      firstRingUtcSeconds := wallUtcSeconds
                      firstRingMonotonicSeconds := monotonicSeconds } })

def requestSnooze (state : PersistentAlarmState) (occurrenceId : Text)
    (monotonicSeconds durationSeconds : Int64) : EvaluationResult × PersistentAlarmState :=
  match state.active with
  | none => ({ status := .conflict, occurrenceId }, state)
  | some active =>
      if active.occurrenceId != occurrenceId then ({ status := .conflict, occurrenceId }, state)
      else if active.snoozeDeadlineMonotonicSeconds.isSome then
        ({ status := .conflict, occurrenceId }, state)
      else if durationSeconds < kMinimumSnoozeSeconds ∨ durationSeconds > kMaximumSnoozeSeconds then
        ({ status := .invalidRequest, occurrenceId }, state)
      else if active.snoozeCount ≥ kMaximumSnoozes then
        ({ status := .snoozeLimitReached, occurrenceId }, state)
      else if monotonicSeconds < active.firstRingMonotonicSeconds then
        (invalidTimeResult occurrenceId, state)
      else
        match checkedAdd monotonicSeconds durationSeconds with
        | none => (invalidTimeResult occurrenceId, state)
        | some deadline =>
            ({ status := .snoozed, occurrenceId, stopAlert := true, persistBeforeEffects := true },
              { state with
                active := some
                  { active with
                    snoozeCount := active.snoozeCount + 1
                    snoozeDeadlineMonotonicSeconds := some deadline } })

/-- The terminal transition the lifecycle functions share: raise the active
occurrence's watermark, append its terminal record, clear the active slot. -/
def closeActive (state : PersistentAlarmState) (active : ActiveOccurrence)
    (reason : TerminalReason) : PersistentAlarmState :=
  { appendTerminal
      (recordTerminalHighWatermark state active.alarmId active.scheduledUtcSeconds)
      ⟨active.occurrenceId, reason⟩ with active := none }

def advanceActive (state : PersistentAlarmState) (monotonicSeconds : Int64) :
    EvaluationResult × PersistentAlarmState :=
  match state.active with
  | none => ({}, state)
  | some active =>
      let occurrenceId := active.occurrenceId
      match checkedElapsed monotonicSeconds active.firstRingMonotonicSeconds with
      | none => (invalidTimeResult occurrenceId, state)
      | some elapsed =>
          if elapsed ≥ kOccurrenceLifetimeSeconds then
            ({ status := .timedOut, occurrenceId, stopAlert := true,
               persistBeforeEffects := true },
              closeActive state active .timedOut)
          else
            match active.snoozeDeadlineMonotonicSeconds with
            | none => ({ status := .ringing, occurrenceId }, state)
            | some deadline =>
                if monotonicSeconds < deadline then ({ status := .snoozed, occurrenceId }, state)
                else
                  ({ status := .ringing, occurrenceId, startAlert := true,
                     persistBeforeEffects := true },
                    { state with
                      active := some { active with snoozeDeadlineMonotonicSeconds := none } })

def dismissActive (state : PersistentAlarmState) (occurrenceId : Text) (alarmDisabled : Bool) :
    EvaluationResult × PersistentAlarmState :=
  match state.active with
  | none => ({ status := .conflict, occurrenceId }, state)
  | some active =>
      if active.occurrenceId != occurrenceId then ({ status := .conflict, occurrenceId }, state)
      else
        ({ status := .dismissed, occurrenceId, stopAlert := true, persistBeforeEffects := true },
          closeActive state active (if alarmDisabled then .alarmDisabled else .dismissed))

def recoverAfterReboot (state : PersistentAlarmState) (wallUtcSeconds : Int64) (bootId : Text) :
    EvaluationResult × PersistentAlarmState :=
  match state.active with
  | none => ({}, state)
  | some active =>
      let occurrenceId := active.occurrenceId
      if active.lastRecoveryBootId == bootId then ({ status := .duplicate, occurrenceId }, state)
      else
        match checkedElapsed wallUtcSeconds active.firstRingUtcSeconds with
        | none => (invalidTimeResult occurrenceId, state)
        | some elapsed =>
            if elapsed ≥ kOccurrenceLifetimeSeconds then
              ({ status := .missed, occurrenceId, persistBeforeEffects := true },
                closeActive state active .prolongedPowerOff)
            else
              ({ status := .ringing, occurrenceId, startAlert := true,
                 persistBeforeEffects := true, recoveredAfterReboot := true },
                { state with
                  active := some
                    { active with
                      snoozeDeadlineMonotonicSeconds := none
                      recoveredAfterReboot := true
                      lastRecoveryBootId := bootId } })

/-! ### Batched journaling -/

def journalCanAccept (state : PersistentAlarmState) (alarmId : Text) : Bool :=
  canTrackTerminal state alarmId

/-- The terminal record of one occurrence, or `none` when its alarm cannot be
tracked and the state is left alone. -/
def journalTerminal (state : PersistentAlarmState) (alarmId occurrenceId : Text)
    (scheduledUtcSeconds : Int64) (reason : TerminalReason) : Option PersistentAlarmState :=
  if !canTrackTerminal state alarmId then none
  else
    some (appendTerminal (recordTerminalHighWatermark state alarmId scheduledUtcSeconds)
      ⟨occurrenceId, reason⟩)

/-- Place a recovered late ring into the active slot, or `none` when the slot is
taken or the alarm cannot be tracked. -/
def beginRecoveredRing (state : PersistentAlarmState) (alarmId occurrenceId : Text)
    (scheduledUtcSeconds wallUtcSeconds monotonicSeconds : Int64) :
    Option PersistentAlarmState :=
  if state.active.isSome then none
  else if !canTrackTerminal state alarmId then none
  else
    some { state with
      active := some
        { alarmId, occurrenceId, scheduledUtcSeconds
          firstRingUtcSeconds := wallUtcSeconds
          firstRingMonotonicSeconds := monotonicSeconds } }

end DawnDock
