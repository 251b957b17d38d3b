import DawnDock.App.DeviceScheduleStore
import DawnDock.Library.Collect
import DawnDock.Recurrence.Mirror

/-!
The phone's projection of the next alarm (`device_status.dart`).

An enabled alarm that cannot be resolved withholds the next alarm, as it might be the
earliest (`projectDeviceStatus_next`).
-/

namespace DawnDock.App

/-- The name of the value in the enumeration. -/
def OccurrenceResolutionStatus.name : OccurrenceResolutionStatus → DartString
  | .resolved => utf16 "resolved"
  | .noOccurrence => utf16 "noOccurrence"
  | .invalidSchedule => utf16 "invalidSchedule"
  | .invalidRules => utf16 "invalidRules"
  | .outOfRange => utf16 "outOfRange"

/-- The characters of a string whose surrogates are paired. -/
def characters? (text : DartString) : Option String :=
  ((Utf16.runes text).mapM fun (rune : Nat) =>
    if rune.isValidChar then some (Char.ofNat rune) else none).map String.ofList

/-- `fromAlarm`. The order of the days does not matter. Rules have names of characters, so a
zone with unpaired surrogates has none; the resolver refuses it as it does the empty name. -/
def WeeklyOccurrenceSchedule.fromAlarm (draft : AlarmDraft) (timezoneRulesVersion : String) :
    WeeklyOccurrenceSchedule where
  localHour := draft.localHour
  localMinute := draft.localMinute
  isoWeekdayMask := draft.days.fold (· ||| ·) 0 fun isoDay => (1 : Int64) <<< (isoDay - 1)
  timezoneName := (characters? draft.timezone).getD ""
  timezoneRulesVersion

inductive NextAlarmEvidence where
  | none | unresolved | projectedOnly | confirmedByReceipt | receiptMismatch
deriving DecidableEq, Repr

structure ProjectedOccurrence where
  alarm : AlarmDraft
  occurrence : ResolvedOccurrence
deriving DecidableEq

def ProjectedOccurrence.scheduledUtcSeconds (projected : ProjectedOccurrence) : Int64 :=
  projected.occurrence.scheduledUtcSeconds

structure UnresolvedAlarmDetail where
  alarmId : DartString
  timezone : DartString
  status : Option OccurrenceResolutionStatus
  reason : DartString
deriving DecidableEq

structure DeviceStatusProjection where
  revision : Int64
  totalAlarms : Nat
  enabledAlarmsCount : Nat
  nextOccurrence : Option ProjectedOccurrence
  evidence : NextAlarmEvidence
  unresolvedAlarms : List UnresolvedAlarmDetail
  lastReceipt : Option SyncReceipt
deriving DecidableEq

/-- The body of the loop for one enabled alarm: an unresolved alarm or a candidate. -/
def projectAlarm (rulesProvider : DartString → Option TimezoneRules) (afterUtcSeconds : Int64)
    (timezoneRulesVersion : String) (alarm : AlarmDraft) :
    Except UnresolvedAlarmDetail ProjectedOccurrence :=
  match rulesProvider alarm.timezone with
  | none =>
      .error { alarmId := alarm.id, timezone := alarm.timezone, status := none
               reason := utf16 "missing_timezone_rules" }
  | some rules =>
      let resolved := resolveNextOccurrence
        (WeeklyOccurrenceSchedule.fromAlarm alarm timezoneRulesVersion) rules afterUtcSeconds
      if resolved.status ≠ .resolved then
        .error { alarmId := alarm.id, timezone := alarm.timezone, status := some resolved.status
                 reason := resolved.status.name }
      else .ok { alarm, occurrence := resolved }

/-- The comparison of the candidates is negative: by instant, then by the code units of the
ids. -/
def projectedBefore (a b : ProjectedOccurrence) : Bool :=
  if a.scheduledUtcSeconds ≠ b.scheduledUtcSeconds then
    a.scheduledUtcSeconds < b.scheduledUtcSeconds
  else a.alarm.id < b.alarm.id

/-- `sort`; the order is total where the ids are distinct. -/
def sortProjected (candidates : List ProjectedOccurrence) : List ProjectedOccurrence :=
  candidates.insertionSort fun a b => !projectedBefore b a

def sortUnresolved (unresolved : List UnresolvedAlarmDetail) : List UnresolvedAlarmDetail :=
  unresolved.insertionSort fun a b => !decide (b.alarmId < a.alarmId)

def addCandidate (sofar : List UnresolvedAlarmDetail × List ProjectedOccurrence)
    (candidate : ProjectedOccurrence) : List UnresolvedAlarmDetail × List ProjectedOccurrence :=
  (sofar.1, sofar.2 ++ [candidate])

def addUnresolved (sofar : List UnresolvedAlarmDetail × List ProjectedOccurrence)
    (detail : UnresolvedAlarmDetail) : List UnresolvedAlarmDetail × List ProjectedOccurrence :=
  (sofar.1 ++ [detail], sofar.2)

/-- `toUtc().millisecondsSinceEpoch ~/ 1000`. Both divisions truncate. -/
def DateTime.epochSeconds (instant : DateTime) : Int :=
  (instant.toUtc.microsecondsSinceEpoch.tdiv 1000).tdiv 1000

/-- What the receipt says about the projected next alarm. -/
def receiptEvidence (store : DeviceScheduleStore) (earliest : ProjectedOccurrence) :
    NextAlarmEvidence :=
  match store.lastReceipt with
  | none => .projectedOnly
  | some receipt =>
      if receipt.appliedRevision ≠ store.knownRevision then .projectedOnly
      else if receipt.nextAlarmUtc.epochSeconds = earliest.scheduledUtcSeconds.toInt then
        .confirmedByReceipt
      else .receiptMismatch

def projectDeviceStatus (store : DeviceScheduleStore)
    (rulesProvider : DartString → Option TimezoneRules) (afterUtcSeconds : Int64)
    (timezoneRulesVersion : String) : DeviceStatusProjection :=
  let enabled := store.committed.filter (·.enabled)
  let summary : DeviceStatusProjection :=
    { revision := store.knownRevision, totalAlarms := store.committed.length
      enabledAlarmsCount := enabled.length, nextOccurrence := none, evidence := .none
      unresolvedAlarms := [], lastReceipt := store.lastReceipt }
  if enabled.isEmpty then summary
  else
    let (unresolved, candidates) :=
      enabled.foldl (Collect.step (projectAlarm rulesProvider afterUtcSeconds timezoneRulesVersion)
        addCandidate addUnresolved) ([], [])
    if !unresolved.isEmpty then
      { summary with evidence := .unresolved, unresolvedAlarms := sortUnresolved unresolved }
    else
      match (sortProjected candidates).head? with
      | none => summary
      | some earliest =>
          { summary with
            nextOccurrence := some earliest, evidence := receiptEvidence store earliest }

/-! ### What is projected -/

theorem characters?_utf16 (text : String) : characters? (utf16 text) = some text := by
  have read (chars : List Char) : (chars.map Char.toNat).mapM (fun (rune : Nat) =>
      if rune.isValidChar then some (Char.ofNat rune) else none) = some chars := by
    induction chars with
    | nil => rfl
    | cons c rest ih =>
        have valid : c.toNat.isValidChar := c.valid
        rw [List.map_cons, List.mapM_cons, ih, if_pos valid, Char.ofNat_toNat]
        rfl
  rw [characters?, utf16, Utf16.runes_encode, read, Option.map_some, String.ofList_toList]

section

variable {store : DeviceScheduleStore} {rulesProvider : DartString → Option TimezoneRules}
  {afterUtcSeconds : Int64} {timezoneRulesVersion : String} {alarms : List AlarmDraft}

/-- Every alarm is a candidate. -/
abbrev Projects (rulesProvider : DartString → Option TimezoneRules) (afterUtcSeconds : Int64)
    (timezoneRulesVersion : String) (alarms : List AlarmDraft)
    (candidates : List ProjectedOccurrence) : Prop :=
  Collect.All (projectAlarm rulesProvider afterUtcSeconds timezoneRulesVersion) alarms candidates

theorem foldl_addCandidate (candidates : List ProjectedOccurrence)
    (sofar : List UnresolvedAlarmDetail × List ProjectedOccurrence) :
    candidates.foldl addCandidate sofar = (sofar.1, sofar.2 ++ candidates) := by
  induction candidates generalizing sofar with
  | nil => simp
  | cons candidate rest ih => simp [ih, addCandidate]

/-- The next alarm is the first candidate, if every enabled alarm is one. -/
theorem projectDeviceStatus_next {projected : ProjectedOccurrence} :
    (projectDeviceStatus store rulesProvider afterUtcSeconds timezoneRulesVersion).nextOccurrence =
        some projected ↔
      ∃ candidates, Projects rulesProvider afterUtcSeconds timezoneRulesVersion
          (store.committed.filter (·.enabled)) candidates ∧
        (sortProjected candidates).head? = some projected := by
  have shape : (projectDeviceStatus store rulesProvider afterUtcSeconds
      timezoneRulesVersion).nextOccurrence =
        if (store.committed.filter (·.enabled)).isEmpty then none
        else
          let found := (store.committed.filter (·.enabled)).foldl (Collect.step
            (projectAlarm rulesProvider afterUtcSeconds timezoneRulesVersion) addCandidate
              addUnresolved) ([], [])
          if !found.1.isEmpty then none else (sortProjected found.2).head? := by
    unfold projectDeviceStatus
    dsimp only
    split
    · rfl
    split
    · rfl
    · split <;> simp_all
  rw [shape]
  constructor
  · intro shown
    split at shown
    · cases shown
    dsimp only at shown
    split at shown
    · cases shown
    rename_i resolved
    rcases Collect.all_or_error (projectAlarm rulesProvider afterUtcSeconds timezoneRulesVersion)
      (store.committed.filter (·.enabled)) with ⟨candidates, all⟩ | ⟨alarm, mem, detail, failed⟩
    · rw [Collect.foldl_of_all all, foldl_addCandidate] at shown
      exact ⟨candidates, all, shown⟩
    · have unresolved := Collect.foldl_of_error
        (projectAlarm rulesProvider afterUtcSeconds timezoneRulesVersion) addCandidate
        addUnresolved (P := fun sofar => sofar.1 ≠ []) (fun _ _ _ _ => by simp [addUnresolved])
        (fun _ _ unresolved => unresolved) mem failed ([], [])
      simp only [Bool.not_eq_true', Bool.not_eq_false, List.isEmpty_iff] at resolved
      exact absurd resolved unresolved
  · rintro ⟨candidates, all, first⟩
    rw [if_neg, Collect.foldl_of_all all, foldl_addCandidate]
    · exact first
    · intro none
      rw [List.isEmpty_iff] at none
      rw [none] at all
      cases all
      cases first

end

end DawnDock.App
