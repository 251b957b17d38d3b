import DawnDock.AlarmEngine

/-!
The committed snapshot (`schedule_store.hpp`) and its validator
(`validate_snapshot` in `schedule_store.cpp`).

The validator reads the schedule and the journal separately:
`validateSnapshot` is the conjunction of `ValidSchedule` and `ValidJournal`
(`validateSnapshot_iff`), so a new journal under the same schedule, or a new
schedule over the same journal, is validated by its own half.
-/

namespace DawnDock

def kCurrentStorageSchemaVersion : UInt16 := 2
def kMaximumStoredAlarms : Nat := 32
def kMaximumAlarmIdBytes : Nat := 64
def kMaximumOccurrenceIdBytes : Nat := 160
def kMaximumBootIdBytes : Nat := 64
def kMaximumTimezoneVersionBytes : Nat := 64
def kMaximumStorageRecordBytes : Nat := 64 * 1024

structure StoredAlarmDefinition where
  id : Text
  scheduleRevision : UInt64
  enabled : Bool
  scheduledUtcSeconds : Int64
deriving DecidableEq, Repr

structure ScheduleSnapshot where
  revision : UInt64 := 0
  timezoneRulesVersion : Text := []
  alarms : List StoredAlarmDefinition := []
  occurrenceState : PersistentAlarmState := {}
deriving DecidableEq, Repr

/-- Nonempty, within the bound, and free of control characters. -/
def validString (value : Text) (maximum : Nat) : Bool :=
  !value.isEmpty && value.length ≤ maximum && !value.any fun byte => byte == 0 || byte < 0x20

def validOptionalString (value : Text) (maximum : Nat) : Bool :=
  value.isEmpty || validString value maximum

/-- One alarm of a schedule with the given revision. -/
def validAlarm (revision : UInt64) (alarm : StoredAlarmDefinition) : Bool :=
  validString alarm.id kMaximumAlarmIdBytes && alarm.scheduleRevision != 0 &&
    alarm.scheduleRevision ≤ revision

def validActive (active : ActiveOccurrence) : Bool :=
  validString active.alarmId kMaximumAlarmIdBytes &&
    validString active.occurrenceId kMaximumOccurrenceIdBytes &&
    validOptionalString active.lastRecoveryBootId kMaximumBootIdBytes &&
    active.snoozeCount ≤ kMaximumSnoozes &&
    !active.snoozeDeadlineMonotonicSeconds.any (· < active.firstRingMonotonicSeconds)

/-- The source also rejects a reason beyond `prolonged_power_off`; the
enumeration has none. -/
def validTerminal (active : Option ActiveOccurrence) (terminal : TerminalOccurrence) : Bool :=
  validString terminal.occurrenceId kMaximumOccurrenceIdBytes &&
    !active.any (·.occurrenceId == terminal.occurrenceId)

/-- A failed `unordered_set::insert` in the source is a repeated id. -/
def distinct (ids : List Text) : Bool := decide ids.Nodup

def validateSnapshot (snapshot : ScheduleSnapshot) : Bool :=
  let state := snapshot.occurrenceState
  if snapshot.revision == 0 ||
      !validString snapshot.timezoneRulesVersion kMaximumTimezoneVersionBytes ||
      snapshot.alarms.length > kMaximumStoredAlarms ||
      state.terminal.length > kRecentTerminalRetention ||
      state.terminalHighWatermarks.length > kTerminalHighWatermarkCapacity then false
  else
    snapshot.alarms.all (validAlarm snapshot.revision) && distinct (snapshot.alarms.map (·.id)) &&
    state.active.all validActive &&
    state.terminal.all (validTerminal state.active) &&
    distinct (state.terminal.map (·.occurrenceId)) &&
    state.terminalHighWatermarks.all (fun w => validString w.alarmId kMaximumAlarmIdBytes) &&
    distinct (state.terminalHighWatermarks.map (·.alarmId))

/-! ### The two halves of the validator -/

/-- What the validator asks of the schedule fields. -/
structure ValidSchedule (snapshot : ScheduleSnapshot) : Prop where
  revision : snapshot.revision ≠ 0
  timezone : validString snapshot.timezoneRulesVersion kMaximumTimezoneVersionBytes = true
  count : snapshot.alarms.length ≤ kMaximumStoredAlarms
  alarms : ∀ alarm ∈ snapshot.alarms, validAlarm snapshot.revision alarm = true
  ids : (snapshot.alarms.map (·.id)).Nodup

/-- What the validator asks of the occurrence journal. -/
structure ValidJournal (state : PersistentAlarmState) : Prop where
  active : ∀ a ∈ state.active, validActive a = true
  terminalCount : state.terminal.length ≤ kRecentTerminalRetention
  terminal : ∀ t ∈ state.terminal,
    validString t.occurrenceId kMaximumOccurrenceIdBytes = true
  terminalIds : (state.terminal.map (·.occurrenceId)).Nodup
  activeNotTerminal : ∀ a ∈ state.active, a.occurrenceId ∉ state.terminal.map (·.occurrenceId)
  watermarkCount : state.terminalHighWatermarks.length ≤ kTerminalHighWatermarkCapacity
  watermarks : ∀ w ∈ state.terminalHighWatermarks,
    validString w.alarmId kMaximumAlarmIdBytes = true
  watermarkIds : (state.terminalHighWatermarks.map (·.alarmId)).Nodup

theorem validTerminal_iff {active : Option ActiveOccurrence} {t : TerminalOccurrence} :
    validTerminal active t = true ↔ validString t.occurrenceId kMaximumOccurrenceIdBytes = true ∧
      ∀ a ∈ active, a.occurrenceId ≠ t.occurrenceId := by
  cases active <;> simp [validTerminal]

theorem validateSnapshot_iff {snapshot : ScheduleSnapshot} :
    validateSnapshot snapshot = true ↔
      ValidSchedule snapshot ∧ ValidJournal snapshot.occurrenceState := by
  constructor
  · intro h
    simp only [validateSnapshot] at h
    split at h
    · exact absurd h (by simp)
    · rename_i bounds
      simp only [Bool.or_eq_true, beq_iff_eq, Bool.not_eq_true', decide_eq_true_eq, not_or,
        Bool.not_eq_false, Nat.not_lt] at bounds
      simp only [Bool.and_eq_true, List.all_eq_true, distinct, decide_eq_true_eq,
        validTerminal_iff, Option.all_eq_true_iff_get] at h
      obtain ⟨⟨⟨⟨revision, timezone⟩, alarmCount⟩, terminalCount⟩, watermarkCount⟩ := bounds
      obtain ⟨⟨⟨⟨⟨⟨alarms, ids⟩, active⟩, terminal⟩, terminalIds⟩, watermarks⟩, watermarkIds⟩ := h
      refine ⟨⟨revision, timezone, alarmCount, alarms, ids⟩, ?_, terminalCount,
        fun t ht => (terminal t ht).1, terminalIds, ?_, watermarkCount, watermarks, watermarkIds⟩
      · intro a ha
        have := active (Option.isSome_iff_exists.mpr ⟨a, ha⟩)
        simpa [Option.mem_def.mp ha] using this
      · intro a ha mem
        obtain ⟨t, ht, same⟩ := List.mem_map.mp mem
        exact (terminal t ht).2 a ha same.symm
  · rintro ⟨s, j⟩
    have bounds : ¬ ((snapshot.revision == 0 ||
        !validString snapshot.timezoneRulesVersion kMaximumTimezoneVersionBytes ||
        decide (snapshot.alarms.length > kMaximumStoredAlarms) ||
        decide (snapshot.occurrenceState.terminal.length > kRecentTerminalRetention) ||
        decide (snapshot.occurrenceState.terminalHighWatermarks.length >
          kTerminalHighWatermarkCapacity)) = true) := by
      simp only [Bool.or_eq_true, beq_iff_eq, Bool.not_eq_true', decide_eq_true_eq, not_or,
        Bool.not_eq_false, Nat.not_lt]
      exact ⟨⟨⟨⟨s.revision, s.timezone⟩, s.count⟩, j.terminalCount⟩, j.watermarkCount⟩
    simp only [validateSnapshot, bounds, Bool.false_eq_true, if_false, Bool.and_eq_true,
      List.all_eq_true, distinct, decide_eq_true_eq, validTerminal_iff]
    refine ⟨⟨⟨⟨⟨⟨s.alarms, s.ids⟩, ?_⟩, fun t ht => ⟨j.terminal t ht, ?_⟩⟩, j.terminalIds⟩,
      j.watermarks⟩, j.watermarkIds⟩
    · cases h : snapshot.occurrenceState.active with
      | none => rfl
      | some a => exact j.active a h
    · intro a ha same
      exact j.activeNotTerminal a ha (same ▸ List.mem_map_of_mem ht)

theorem validJournal_empty : ValidJournal {} := by
  constructor <;> simp

/-- Replacing the journal leaves the schedule half alone. -/
theorem ValidSchedule.withJournal {snapshot : ScheduleSnapshot} (h : ValidSchedule snapshot)
    (state : PersistentAlarmState) :
    ValidSchedule { snapshot with occurrenceState := state } := ⟨h.1, h.2, h.3, h.4, h.5⟩

end DawnDock
