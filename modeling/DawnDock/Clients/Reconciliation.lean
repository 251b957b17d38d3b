import DawnDock.Clients.Alone
import DawnDock.Clients.Healthy
import DawnDock.Journal.Order
import DawnDock.ScheduleStore.Atomicity

/-!
Reconciliation after an invalid interval, without a writer beside it.

* `Classified` is what one batch does to the journal; every batch does it
  (`Batch.classified`).
* `ensures_reconciliation`: under any faults the call makes one such batch durable and
  says so, or reports something else and leaves the record, or leaves the batch although
  its write was reported as failed.
-/

namespace DawnDock

open AtomicProgram

/-! ### The newest records -/

/-- The newest records the journal keeps. -/
def retain (records : List TerminalOccurrence) : List TerminalOccurrence :=
  records.drop (records.length - kRecentTerminalRetention)

theorem retain_of_le {records : List TerminalOccurrence}
    (few : records.length ≤ kRecentTerminalRetention) : retain records = records := by
  rw [retain, Nat.sub_eq_zero_of_le few, List.drop_zero]

theorem retain_append (records more : List TerminalOccurrence) :
    retain (retain records ++ more) = retain (records ++ more) := by
  have front : retain records ++ more =
      (records ++ more).drop (records.length - kRecentTerminalRetention) := by
    rw [retain, List.drop_append_of_le_length (Nat.sub_le _ _)]
  rw [front, retain, retain, List.drop_drop]
  congr 1
  simp only [List.length_drop, List.length_append]
  omega

/-- What was just recorded is kept. -/
theorem mem_retain {records more : List TerminalOccurrence} {record : TerminalOccurrence}
    (few : more.length ≤ kRecentTerminalRetention) (mem : record ∈ more) :
    record ∈ retain (records ++ more) := by
  rw [retain, List.drop_append]
  refine List.mem_append_right _ ?_
  have none : (records ++ more).length - kRecentTerminalRetention - records.length = 0 := by
    simp only [List.length_append]
    omega
  rwa [none, List.drop_zero]

theorem appendTerminal_fresh {state : PersistentAlarmState} {occurrence : TerminalOccurrence}
    (fresh : occurrence.occurrenceId ∉ state.terminal.map (·.occurrenceId)) :
    (appendTerminal state occurrence).terminal = retain (state.terminal ++ [occurrence]) := by
  have absent : ¬ state.terminal.any (·.occurrenceId == occurrence.occurrenceId) = true :=
    fun listed => fresh (isTerminal_iff.mp listed)
  rw [appendTerminal, if_neg absent]
  rfl

/-! ### A batch -/

section

variable {state final : PersistentAlarmState} {older : List StoredAlarmDefinition}
  {wallUtcSeconds monotonicSeconds : Int64}

/-- The record of an alarm a reconciliation misses. -/
def invalidTimeRecord (alarm : StoredAlarmDefinition) : TerminalOccurrence :=
  ⟨makeOccurrenceId alarm.definition, .invalidTime⟩

/-- The records of the missed, in order, behind the old ones. -/
theorem missAll_terminal (few : state.terminal.length ≤ kRecentTerminalRetention)
    (fresh : ∀ alarm ∈ older,
      makeOccurrenceId alarm.definition ∉ state.terminal.map (·.occurrenceId))
    (distinct : (older.map (·.id)).Nodup) (missed : older.foldlM journalMissed state = some final) :
    final.terminal = retain (state.terminal ++ older.map invalidTimeRecord) := by
  induction older generalizing state with
  | nil =>
      cases missed
      rw [List.map_nil, List.append_nil, retain_of_le few]
  | cons alarm rest ih =>
      simp only [List.foldlM_cons, Option.bind_eq_bind, Option.bind_eq_some_iff] at missed
      obtain ⟨middle, first, more⟩ := missed
      obtain ⟨-, rfl⟩ := journalMissed_eq_some first
      obtain ⟨notAgain, distinct⟩ := List.nodup_cons.mp distinct
      have recorded : (missOccurrence state alarm .invalidTime).terminal =
          retain (state.terminal ++ [invalidTimeRecord alarm]) :=
        appendTerminal_fresh (fresh alarm List.mem_cons_self)
      have stillFresh : ∀ other ∈ rest, makeOccurrenceId other.definition ∉
          (missOccurrence state alarm .invalidTime).terminal.map (·.occurrenceId) := by
        intro other later mem
        obtain ⟨t, held, same⟩ := List.mem_map.mp mem
        rcases mem_appendTerminal held with old | rfl
        · exact fresh other (List.mem_cons_of_mem _ later) (same ▸ List.mem_map_of_mem old)
        · have id : alarm.id = other.id := (makeOccurrenceId_inj same).1
          exact notAgain (List.mem_map.mpr ⟨other, later, id.symm⟩)
      have room : (missOccurrence state alarm .invalidTime).terminal.length ≤
          kRecentTerminalRetention := appendTerminal_length_le few
      rw [ih room stillFresh distinct more, recorded, retain_append, List.append_assoc]
      rfl

/-- Alarms outside the batch keep their watermarks. -/
theorem missAll_watermarks {alarmId : Text} (outside : ∀ alarm ∈ older, alarmId ≠ alarm.id)
    (missed : older.foldlM journalMissed state = some final) :
    findHighWatermark final alarmId = findHighWatermark state alarmId := by
  induction older generalizing state with
  | nil =>
      cases missed
      rfl
  | cons alarm rest ih =>
      simp only [List.foldlM_cons, Option.bind_eq_bind, Option.bind_eq_some_iff] at missed
      obtain ⟨middle, first, more⟩ := missed
      obtain ⟨-, rfl⟩ := journalMissed_eq_some first
      rw [ih (fun other later => outside other (List.mem_cons_of_mem _ later)) more,
        findHighWatermark, missOccurrence, appendTerminal_watermarks]
      exact find_raiseHighWatermark_of_ne _ _ (outside alarm List.mem_cons_self)

end

/-- What a reconciliation does to the journal of `snapshot`. -/
structure Classified (snapshot : ScheduleSnapshot) (wallUtcSeconds monotonicSeconds : Int64)
    (journal : PersistentAlarmState) : Prop where
  /-- The newest crossed occurrence rings within the grace; it is missed beyond it, and
  so is every other one. -/
  newest : ∃ newest ∈ snapshot.alarms,
    crossedNow snapshot.occurrenceState wallUtcSeconds newest = true ∧
    (∀ other ∈ snapshot.alarms, crossedNow snapshot.occurrenceState wallUtcSeconds other = true →
      other ≠ newest → scheduledBefore other newest = true ∧
        invalidTimeRecord other ∈ journal.terminal) ∧
    ∃ lateness, checkedElapsed wallUtcSeconds newest.scheduledUtcSeconds = some lateness ∧
      ((lateness ≤ kLateGraceSeconds ∧
          journal.active = some (admittedOccurrence newest wallUtcSeconds monotonicSeconds)) ∨
        (kLateGraceSeconds < lateness ∧ journal.active = none ∧
          invalidTimeRecord newest ∈ journal.terminal))
  /-- No occurrence has two records, or one and the active slot. -/
  once : ValidJournal journal
  /-- Otherwise the terminal list only lost its oldest records. -/
  records : ∃ missed : List StoredAlarmDefinition,
    (∀ alarm ∈ missed, alarm ∈ snapshot.alarms ∧
      crossedNow snapshot.occurrenceState wallUtcSeconds alarm = true) ∧
    journal.terminal = retain (snapshot.occurrenceState.terminal ++ missed.map invalidTimeRecord)
  watermarks : ∀ alarmId, (∀ alarm ∈ snapshot.alarms,
      crossedNow snapshot.occurrenceState wallUtcSeconds alarm = true → alarmId ≠ alarm.id) →
    findHighWatermark journal alarmId = findHighWatermark snapshot.occurrenceState alarmId

section

variable {current : Register} {wallUtcSeconds monotonicSeconds : Int64}
  {newest : StoredAlarmDefinition} {lateness : Int64} {journal : PersistentAlarmState}

theorem length_crossedCandidates_le (snapshot : ScheduleSnapshot) (wallUtcSeconds : Int64) :
    (crossedCandidates snapshot wallUtcSeconds).length ≤ snapshot.alarms.length := by
  rw [crossedCandidates, (sortAlarms_perm _).length_eq]
  exact List.length_filter_le _ _

theorem length_crossedCandidates {snapshot : ScheduleSnapshot} (schedule : ValidSchedule snapshot) :
    (crossedCandidates snapshot wallUtcSeconds).length ≤ kRecentTerminalRetention :=
  (length_crossedCandidates_le _ _).trans schedule.count

/-- A batch in which the newest occurrence is missed is the miss of all of them. -/
theorem missAll_snoc {older : List StoredAlarmDefinition} {state middle : PersistentAlarmState}
    (missed : older.foldlM journalMissed state = some middle)
    (room : canTrackTerminal middle newest.id = true) :
    (older ++ [newest]).foldlM journalMissed state =
      some (missOccurrence middle newest .invalidTime) := by
  rw [List.foldlM_append, missed]
  simp [journalMissed, journalTerminal, room, missOccurrence]

/-- Beyond the grace the batch misses every crossed occurrence. -/
theorem Batch.missed
    (batch : Batch current.snapshot wallUtcSeconds monotonicSeconds newest lateness journal)
    (late : kLateGraceSeconds < lateness) :
    (crossedCandidates current.snapshot wallUtcSeconds).foldlM journalMissed
      current.snapshot.occurrenceState = some journal := by
  obtain ⟨middle, missed, room, final⟩ := reconcileJournal_eq_some batch.accepted
  rw [if_neg (by simpa using late)] at final
  rw [crossedCandidates_eq batch.last, final]
  exact missAll_snoc missed room

/-- What is crossed has no record. -/
theorem fresh_of_crossed {snapshot : ScheduleSnapshot} {alarm : StoredAlarmDefinition}
    (mem : alarm ∈ crossedCandidates snapshot wallUtcSeconds) :
    makeOccurrenceId alarm.definition ∉ snapshot.occurrenceState.terminal.map (·.occurrenceId) :=
  unrecorded_of_crossed (mem_crossedCandidates.mp mem).2

/-- The journal behind a batch of misses. -/
theorem Batch.terminal (record : ValidRecord current)
    (batch : Batch current.snapshot wallUtcSeconds monotonicSeconds newest lateness journal)
    (late : kLateGraceSeconds < lateness) :
    journal.terminal = retain (current.snapshot.occurrenceState.terminal ++
      (crossedCandidates current.snapshot wallUtcSeconds).map invalidTimeRecord) :=
  missAll_terminal record.journal.terminalCount (fun _ => fresh_of_crossed)
    (nodup_crossedCandidates record.schedule.ids) (batch.missed late)

theorem Batch.classified (record : ValidRecord current)
    (batch : Batch current.snapshot wallUtcSeconds monotonicSeconds newest lateness journal) :
    Classified current.snapshot wallUtcSeconds monotonicSeconds journal := by
  have whole := crossedCandidates_eq batch.last
  have distinct := @nodup_crossedCandidates wallUtcSeconds _ record.schedule.ids
  have few := @length_crossedCandidates wallUtcSeconds current.snapshot record.schedule
  have members {alarm : StoredAlarmDefinition}
      (mem : alarm ∈ crossedCandidates current.snapshot wallUtcSeconds) :=
    mem_crossedCandidates.mp mem
  have after := scheduledBefore_last
    (sortAlarms_sorted (record.schedule.ids.sublist (List.filter_sublist.map _))) batch.last
  obtain ⟨newestMem, newestCrossed⟩ := members (List.mem_of_getLast? batch.last)
  obtain ⟨middle, missed, room, final⟩ := reconcileJournal_eq_some batch.accepted
  have olderDistinct := distinct
  rw [whole, List.map_append, List.nodup_append] at olderDistinct
  rcases Int64.le_or_lt lateness kLateGraceSeconds with grace | late
  · rw [if_pos (decide_eq_true grace)] at final
    have terminal := missAll_terminal record.journal.terminalCount
      (fun alarm mem => fresh_of_crossed (List.dropLast_subset _ mem)) olderDistinct.1 missed
    have fewOlder : ((crossedCandidates current.snapshot wallUtcSeconds).dropLast.map
        invalidTimeRecord).length ≤ kRecentTerminalRetention := by
      rw [List.length_map, List.length_dropLast]
      omega
    constructor
    · refine ⟨newest, newestMem, newestCrossed, ?_, lateness, batch.elapsed, .inl ⟨grace, ?_⟩⟩
      · intro other mem crossed differ
        have listed := mem_crossedCandidates.mpr ⟨mem, crossed⟩
        refine ⟨after other listed differ, ?_⟩
        rw [whole] at listed
        have isOlder := (List.mem_append.mp listed).resolve_right fun same =>
          differ (List.mem_singleton.mp same)
        rw [final]
        change _ ∈ middle.terminal
        rw [terminal]
        exact mem_retain fewOlder (List.mem_map_of_mem isOlder)
      · rw [final]
    · exact batch.valid record
    · refine ⟨_, fun alarm mem => members (List.dropLast_subset _ mem), ?_⟩
      rw [final]
      exact terminal
    · intro alarmId outside
      rw [final]
      change findHighWatermark middle alarmId = _
      refine missAll_watermarks (fun alarm mem => ?_) missed
      obtain ⟨listed, crossed⟩ := members (List.dropLast_subset _ mem)
      exact outside alarm listed crossed
  · have all := batch.missed late
    have terminal := batch.terminal record late
    have kept {alarm : StoredAlarmDefinition}
        (mem : alarm ∈ crossedCandidates current.snapshot wallUtcSeconds) :
        invalidTimeRecord alarm ∈ journal.terminal := by
      rw [terminal]
      exact mem_retain (by rwa [List.length_map]) (List.mem_map_of_mem mem)
    constructor
    · refine ⟨newest, newestMem, newestCrossed, ?_, lateness, batch.elapsed,
        .inr ⟨late, ?_, kept (List.mem_of_getLast? batch.last)⟩⟩
      · intro other mem crossed differ
        have listed := mem_crossedCandidates.mpr ⟨mem, crossed⟩
        exact ⟨after other listed differ, kept listed⟩
      · exact (foldlM_journalMissed_active all).trans batch.idle
    · exact batch.valid record
    · exact ⟨_, fun alarm mem => members mem, terminal⟩
    · intro alarmId outside
      refine missAll_watermarks (fun alarm mem => ?_) all
      obtain ⟨listed, crossed⟩ := members mem
      exact outside alarm listed crossed

end

/-! ### The call -/

section

variable {current : Register} {wallUtcSeconds monotonicSeconds : Int64} {timeValid : Bool}
  {allowed : StorageFaults → Prop}

/-- The records a reconciliation reports: each crossed occurrence once. -/
def Reported (snapshot : ScheduleSnapshot) (wallUtcSeconds : Int64)
    (recovery : InvalidTimeRecoveryResult) : Prop :=
  recovery.crossed.map (·.occurrenceId) =
    (crossedCandidates snapshot wallUtcSeconds).map fun alarm => makeOccurrenceId alarm.definition

/-- What a reconciliation alone leaves of the record. -/
structure ReconciliationEnds (before : Register) (wallUtcSeconds monotonicSeconds : Int64)
    (recovery : InvalidTimeRecoveryResult) (log : StoreLog) (after : Register) : Prop where
  reconciled : recovery.status = .reconciled → ∃ journal,
    Classified before.snapshot wallUtcSeconds monotonicSeconds journal ∧
      after = before.withJournal journal ∧
      log.map (·.call) = [.load, .saveOccurrenceState journal before.snapshot.revision
        before.generation] ∧
      Reported before.snapshot wallUtcSeconds recovery
  /-- The batch is durable only behind a commit that landed and was answered as failed. -/
  otherwise : recovery.status ≠ .reconciled → before.SameRecord after ∨
    ∃ journal committed, Classified before.snapshot wallUtcSeconds monotonicSeconds journal ∧
      after = before.withJournal journal ∧ committed.status.committed = false ∧
      log.getLast? = some ⟨before, .saveOccurrenceState journal before.snapshot.revision
        before.generation, committed, after⟩

theorem reported_reconciledRecords {snapshot : ScheduleSnapshot} {newest : StoredAlarmDefinition}
    (last : (crossedCandidates snapshot wallUtcSeconds).getLast? = some newest)
    (newestRings : Bool) (lateness : Int64) :
    (reconciledRecords (crossedCandidates snapshot wallUtcSeconds).dropLast newest newestRings
        lateness).map (·.occurrenceId) =
      (crossedCandidates snapshot wallUtcSeconds).map fun alarm =>
        makeOccurrenceId alarm.definition := by
  conv_rhs => rw [crossedCandidates_eq last]
  simp only [reconciledRecords, missedRecord, List.map_append, List.map_map, List.map_singleton]
  rfl

/-- What it reports as reconciled is a batch. -/
def ReconcilesBatch (before : Register) (wallUtcSeconds monotonicSeconds : Int64)
    (recovery : InvalidTimeRecoveryResult) (after : Register) : Prop :=
  recovery.status = .reconciled → ∃ newest lateness journal,
    Batch before.snapshot wallUtcSeconds monotonicSeconds newest lateness journal ∧
      after = before.withJournal journal

theorem ensures_reconciliation (record : ValidRecord current) :
    Ensures (Answers allowed)
      (fun recovery log after =>
        ReconciliationEnds current wallUtcSeconds monotonicSeconds recovery log after ∧
          ReconcilesBatch current wallUtcSeconds monotonicSeconds recovery after)
      (reconcileAfterTimeValid wallUtcSeconds monotonicSeconds timeValid) [] current := by
  have untouched {result : InvalidTimeRecoveryResult} {log : StoreLog}
      (status : result.status ≠ .reconciled) :
      ReconciliationEnds current wallUtcSeconds monotonicSeconds result log current ∧
        ReconcilesBatch current wallUtcSeconds monotonicSeconds result current :=
    ⟨⟨fun reconciled => absurd reconciled status, fun _ => .inl (.inl rfl)⟩,
      fun reconciled => absurd reconciled status⟩
  unfold reconcileAfterTimeValid
  split
  · exact untouched (by simp)
  refine (ensures_load allowed [] current).bind ?_
  rintro loaded log after ⟨rfl, rfl, returns⟩
  split
  · rename_i unloaded
    refine untouched ?_
    simp only [unloadedRecoveryStatus]
    split
    · simp
    split <;> simp
  rename_i isLoaded
  obtain ⟨rfl, -⟩ := returns (not_not.mp isLoaded)
  dsimp only
  split
  · exact untouched (by simp)
  rename_i idle
  split
  · exact untouched (by simp)
  rename_i newest last
  split
  · exact untouched (by simp)
  rename_i lateness elapsed
  split
  · exact untouched (by simp)
  rename_i journal accepted
  have batch : Batch loaded.snapshot wallUtcSeconds monotonicSeconds newest lateness journal :=
    ⟨by simpa using idle, last, elapsed, accepted⟩
  have classified := batch.classified record
  refine ensures_saveOccurrenceState.bind ?_
  rintro committed log' after ⟨rfl, outcome⟩
  cases confirmed : committed.status.committed with
  | true =>
      have left : after = loaded.withJournal journal := by
        cases outcome with
        | refused failed | unconfirmed failed =>
            exact absurd (failed.symm.trans confirmed) (by simp)
        | unchanged _ _ _ _ held => exact absurd held.symm batch.changes
        | stored => rfl
      simp only [Bool.not_true, Bool.false_eq_true, if_false]
      refine ⟨⟨fun _ => ?_, fun other => absurd rfl other⟩,
        fun _ => ⟨newest, lateness, journal, batch, left⟩⟩
      exact ⟨journal, classified, left, rfl, reported_reconciledRecords last _ _⟩
  | false =>
      simp only [Bool.not_false, if_true]
      have failed {status : InvalidTimeRecoveryStatus} (reconciled :
          (if committed.status.isConflict = true then .persistenceConflict
            else .persistenceError) = status) : status ≠ .reconciled := by
        rw [← reconciled]
        split <;> simp
      refine ⟨⟨fun reconciled => absurd rfl (failed reconciled), fun _ => ?_⟩,
        fun reconciled => absurd rfl (failed reconciled)⟩
      cases outcome with
      | refused _ kept => exact .inl kept
      | unconfirmed => exact .inr ⟨journal, committed, classified, rfl, confirmed, rfl⟩
      | unchanged status | stored status =>
          rw [status] at confirmed
          cases confirmed

end

end DawnDock
