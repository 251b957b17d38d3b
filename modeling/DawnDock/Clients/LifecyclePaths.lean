import DawnDock.Clients.Healthy

/-!
The two paths of the active occurrence.

A tick that owes a reconciliation settles the active occurrence itself
(`settle_active_occurrence`); any other tick leaves it to the committed evaluation
(`evaluate_committed_schedule`). Both advance the journal by `advance_active`.

* `lifecycle_paths_agree_iff`: on a handled boot, with nothing else due, they leave
  the same journal and report the same, exactly under `PathsAgree`.
* `separator_in_alarm_id_differs`: an alarm id with the separator in it is reported
  in two ways.
-/

namespace DawnDock

open AtomicProgram

/-! ### Advancing -/

section

variable {state : PersistentAlarmState} {active : ActiveOccurrence} {monotonicSeconds : Int64}

/-- A snoozed occurrence whose deadline has passed. -/
def SnoozeOver (active : ActiveOccurrence) (monotonicSeconds : Int64) : Prop :=
  ∃ deadline, active.snoozeDeadlineMonotonicSeconds = some deadline ∧ deadline ≤ monotonicSeconds

/-- The outcomes of `advanceActive`. -/
inductive AdvanceOutcome (state : PersistentAlarmState) (active : ActiveOccurrence)
    (monotonicSeconds : Int64) : EvaluationResult × PersistentAlarmState → Prop where
  | unusable {result : EvaluationResult} (status : result.status = .invalidTime)
      (unknown : checkedElapsed monotonicSeconds active.firstRingMonotonicSeconds = none) :
      AdvanceOutcome state active monotonicSeconds (result, state)
  | expired {result : EvaluationResult} (usable : result.status ≠ .invalidTime)
      (persists : result.persistBeforeEffects = true)
      (past : LifetimeOver active monotonicSeconds) :
      AdvanceOutcome state active monotonicSeconds (result, closeActive state active .timedOut)
  | waits {result : EvaluationResult} (usable : result.status ≠ .invalidTime)
      (keeps : result.persistBeforeEffects = false)
      (known : checkedElapsed monotonicSeconds active.firstRingMonotonicSeconds ≠ none)
      (lives : ¬ LifetimeOver active monotonicSeconds)
      (still : ¬ SnoozeOver active monotonicSeconds) :
      AdvanceOutcome state active monotonicSeconds (result, state)
  | rerung {result : EvaluationResult} (usable : result.status ≠ .invalidTime)
      (persists : result.persistBeforeEffects = true)
      (known : checkedElapsed monotonicSeconds active.firstRingMonotonicSeconds ≠ none)
      (lives : ¬ LifetimeOver active monotonicSeconds)
      (ended : SnoozeOver active monotonicSeconds) :
      AdvanceOutcome state active monotonicSeconds
        (result, { state with
          active := some { active with snoozeDeadlineMonotonicSeconds := none } })

theorem advanceActive_outcome (held : state.active = some active) (monotonicSeconds : Int64) :
    AdvanceOutcome state active monotonicSeconds (advanceActive state monotonicSeconds) := by
  simp only [advanceActive, held]
  split
  · rename_i unknown
    exact .unusable rfl unknown
  rename_i elapsed known
  split
  · rename_i past
    exact .expired (by simp) rfl ⟨elapsed, known, past⟩
  rename_i short
  have lives : ¬ LifetimeOver active monotonicSeconds := by
    rintro ⟨other, same, past⟩
    obtain rfl : other = elapsed := Option.some.inj (same.symm.trans known)
    exact short past
  have known : checkedElapsed monotonicSeconds active.firstRingMonotonicSeconds ≠ none := by
    simp [known]
  split
  · rename_i ringing
    refine .waits (by simp) rfl known lives ?_
    rintro ⟨deadline, snoozed, -⟩
    rw [ringing] at snoozed
    cases snoozed
  rename_i deadline snoozed
  split
  · rename_i early
    refine .waits (by simp) rfl known lives ?_
    rintro ⟨other, same, passed⟩
    obtain rfl : other = deadline := Option.some.inj (same.symm.trans snoozed)
    exact absurd passed (Int64.not_le.mpr early)
  · rename_i passed
    exact .rerung (by simp) rfl known lives ⟨deadline, snoozed, Int64.not_lt.mp passed⟩

theorem AdvanceOutcome.kept {done : EvaluationResult × PersistentAlarmState}
    (outcome : AdvanceOutcome state active monotonicSeconds done)
    (keeps : done.1.persistBeforeEffects = false) : done.2 = state := by
  cases outcome with
  | unusable | waits => rfl
  | expired _ persists | rerung _ persists =>
      rw [keeps] at persists
      cases persists

/-- Closing the active occurrence leaves a valid journal if its alarm can be tracked. -/
theorem ValidJournal.closeActive_iff (valid : ValidJournal state)
    (held : state.active = some active) (reason : TerminalReason) :
    ValidJournal (closeActive state active reason) ↔
      canTrackTerminal state active.alarmId = true := by
  have accepted := valid.active active held
  simp only [validActive, Bool.and_eq_true] at accepted
  constructor
  · intro closed
    have count := closed.watermarkCount
    have table : (closeActive state active reason).terminalHighWatermarks =
        raiseHighWatermark active.alarmId active.scheduledUtcSeconds
          state.terminalHighWatermarks := appendTerminal_watermarks _ _
    rw [table, ← List.length_map (f := (·.alarmId)), raiseHighWatermark_ids] at count
    apply canTrackTerminal_iff.mpr
    split at count
    · rename_i tracked
      exact .inl tracked
    · right
      rw [List.length_append, List.length_map, List.length_singleton] at count
      exact count
  · intro room
    exact valid.close accepted.1.1.1.1 accepted.1.1.1.2 room _ reason

theorem ValidJournal.rering (valid : ValidJournal state) (held : state.active = some active) :
    ValidJournal { state with
      active := some { active with snoozeDeadlineMonotonicSeconds := none } } := by
  have accepted := valid.active active held
  simp only [validActive, Bool.and_eq_true] at accepted
  constructor
  · rintro a ⟨⟩
    simp [validActive, accepted]
  · exact valid.terminalCount
  · exact valid.terminal
  · exact valid.terminalIds
  · rintro a ⟨⟩
    exact valid.activeNotTerminal active held
  · exact valid.watermarkCount
  · exact valid.watermarks
  · exact valid.watermarkIds

end

/-! ### Reports -/

/-- What a tick reports of the active occurrence. -/
structure ActiveReport where
  alarmId : Text
  occurrenceId : Text
  status : EvaluationStatus
  startAlert : Bool
  stopAlert : Bool
deriving DecidableEq, Repr

def activeReport (alarmId : Text) (result : EvaluationResult) : ActiveReport :=
  ⟨alarmId, result.occurrenceId, result.status, result.startAlert, result.stopAlert⟩

def RuntimeTickEffect.report (effect : RuntimeTickEffect) : ActiveReport :=
  ⟨effect.alarmId, effect.occurrenceId, effect.status, effect.startAlert, effect.stopAlert⟩

/-- The active-lifecycle effects of a tick. -/
def RuntimeTickResult.activeReports (result : RuntimeTickResult) : List ActiveReport :=
  (result.effects.filter (·.stage = .activeLifecycle)).map (·.report)

/-- The entries of a due pass are not of the active occurrence. -/
theorem HealthyPass.entries {wallUtcSeconds monotonicSeconds : Int64}
    {alarms : List StoredAlarmDefinition} {current : Register}
    {evaluation : CommittedScheduleEvaluation} {final : CommittedScheduleEvaluation × Register}
    (pass : HealthyPass wallUtcSeconds monotonicSeconds alarms current evaluation final) :
    ∃ more, final.1.alarms = evaluation.alarms ++ more ∧
      ∀ alarm ∈ more, alarm.fromActiveOccurrence = false := by
  induction pass with
  | done => exact ⟨[], by simp⟩
  | unusable => exact ⟨[_], rfl, by simp⟩
  | refused => exact ⟨[_], rfl, by simp [CommittedAlarmEvaluation.silent]⟩
  | quiet _ _ _ _ ih =>
      obtain ⟨more, whole, due⟩ := ih
      refine ⟨_ :: more, whole.trans (List.append_assoc _ [_] _), ?_⟩
      exact List.forall_mem_cons.mpr ⟨rfl, due⟩
  | stored _ _ _ _ _ _ ih =>
      obtain ⟨more, whole, due⟩ := ih
      refine ⟨_ :: more, whole.trans (List.append_assoc _ [_] _), ?_⟩
      exact List.forall_mem_cons.mpr ⟨rfl, due⟩

/-! ### The two ticks -/

section

variable {current : Register} {active : ActiveOccurrence} {state : RuntimeCoordinatorState}
  {observation : RuntimeTickObservation}

/-- The transition of the active occurrence can be made. -/
def Settles (current : Register) (done : EvaluationResult × PersistentAlarmState) : Prop :=
  done.1.status ≠ .invalidTime ∧
    (done.1.persistBeforeEffects = true → Writable current done.2)

/-- The record behind the transition. -/
def settledRecord (current : Register) (done : EvaluationResult × PersistentAlarmState) :
    Register :=
  if done.1.persistBeforeEffects then current.withJournal done.2 else current

theorem advanceActive_changes {journal : PersistentAlarmState} {monotonicSeconds : Int64}
    (persists : (advanceActive journal monotonicSeconds).1.persistBeforeEffects = true) :
    (advanceActive journal monotonicSeconds).2 ≠ journal := by
  have transition := advanceActive_transition [] journal ⟨true, 0, monotonicSeconds, []⟩
  exact (transition.step persists).changed

/-- Settling the active occurrence of a handled boot. -/
theorem exec_settleActiveOccurrence (record : ValidRecord current)
    (held : current.snapshot.occurrenceState.active = some active) (result : RuntimeTickResult) :
    let done := advanceActive current.snapshot.occurrenceState observation.monotonicSeconds
    let run := exec healthyRegister (settleActiveOccurrence current observation false result) current
    (Settles current done → ∃ after : RuntimeTickResult, run = (.ok after, settledRecord current done) ∧
        after.effects = result.effects ++ [settleEffect active.alarmId done.1]) ∧
      (¬ Settles current done → ∃ after : RuntimeTickResult, run = (.error after, current) ∧
        after.effects = result.effects) := by
  intro done run
  have whole : run = exec healthyRegister
      (settleActiveOccurrence current observation false result) current := rfl
  unfold settleActiveOccurrence at whole
  simp only [held, settleTransition, Bool.false_eq_true, if_false] at whole
  constructor
  · rintro ⟨usable, writable⟩
    rw [if_neg usable] at whole
    cases persists : done.1.persistBeforeEffects with
    | false =>
        have idle : ¬ done.1.persistBeforeEffects = true := by simp [persists]
        rw [if_neg idle] at whole
        exact ⟨_, by rw [whole, settledRecord, persists]; rfl, rfl⟩
    | true =>
        rw [if_pos persists, exec_commit record (advanceActive_changes persists),
          if_pos (writable persists)] at whole
        exact ⟨_, by rw [whole, settledRecord, persists]; rfl, rfl⟩
  · intro unsettled
    by_cases unusable : done.1.status = .invalidTime
    · rw [if_pos unusable] at whole
      exact ⟨_, whole, rfl⟩
    rw [if_neg unusable] at whole
    have refused : done.1.persistBeforeEffects = true ∧ ¬ Writable current done.2 := by
      simpa [Settles, unusable] using unsettled
    rw [if_pos refused.1, exec_commit record (advanceActive_changes refused.1),
      if_neg refused.2] at whole
    exact ⟨_, whole, rfl⟩

theorem Settles.record {done : EvaluationResult × PersistentAlarmState}
    (settles : Settles current done) (record : ValidRecord current) :
    ValidRecord (settledRecord current done) := by
  unfold settledRecord
  split
  · rename_i persists
    exact record.withJournal (record.writable.mp (settles.2 persists)).1
  · exact record

theorem filter_reconciliation (recovery : InvalidTimeRecoveryResult)
    (crossed : List RecoveredOccurrence) :
    (crossed.map (reconciliationEffect recovery)).filter (·.stage = .activeLifecycle) = [] := by
  refine List.filter_eq_nil_iff.mpr fun effect mem => ?_
  obtain ⟨occurrence, -, rfl⟩ := List.mem_map.mp mem
  unfold reconciliationEffect
  dsimp only
  split <;> simp

/-- A reconciliation reports nothing of the active occurrence. -/
theorem activeReports_reconciled (recovery : InvalidTimeRecoveryResult)
    (result : RuntimeTickResult) :
    (applyReconciliationOutcome recovery result).activeReports = result.activeReports := by
  simp only [applyReconciliationOutcome, RuntimeTickResult.activeReports, List.filter_append]
  split
  · rw [filter_reconciliation, List.append_nil]
  · rw [List.filter_nil, List.append_nil]

/-- The tick that owes a reconciliation. -/
theorem exec_latchedTick (record : ValidRecord current)
    (held : current.snapshot.occurrenceState.active = some active)
    (handled : isBootPending state observation = false) :
    let done := advanceActive current.snapshot.occurrenceState observation.monotonicSeconds
    let run := exec healthyRegister (latchedTick state observation) current
    (Settles current done →
        run.1.1.activeReports = [activeReport active.alarmId done.1] ∧
        ∃ recovery, HealthyReconciliation (settledRecord current done) observation.wallUtcSeconds
          observation.monotonicSeconds (recovery, run.2)) ∧
      (¬ Settles current done → run.1.1.activeReports = [] ∧ run.2 = current) := by
  intro done run
  have whole : run = exec healthyRegister (latchedTick state observation) current := rfl
  obtain ⟨settled, stopped⟩ := @exec_settleActiveOccurrence current active observation record held
    { reconciliationAttempted := true, scheduleRevision := current.snapshot.revision
      generation := current.generation }
  unfold latchedTick at whole
  dsimp only at whole
  rw [exec_bind, handled] at whole
  unfold settleLoaded at whole
  rw [exec_load] at whole
  simp only [record.loaded, ne_eq, not_true, if_false] at whole
  constructor
  · intro settles
    obtain ⟨after, settling, effects⟩ := settled settles
    rw [settling] at whole
    dsimp only at whole
    rw [exec_bind] at whole
    have reconciled := @exec_reconcileAfterTimeValid _ observation.wallUtcSeconds
      observation.monotonicSeconds (settles.record record)
    rw [whole]
    refine ⟨?_, _, reconciled⟩
    change (applyReconciliationOutcome _ after).activeReports = _
    rw [activeReports_reconciled, RuntimeTickResult.activeReports, effects]
    rfl
  · intro unsettled
    obtain ⟨after, settling, effects⟩ := stopped unsettled
    rw [settling] at whole
    rw [whole]
    constructor
    · change after.activeReports = []
      rw [RuntimeTickResult.activeReports, effects]
      rfl
    · rfl

theorem activeReports_evaluation (result : RuntimeTickResult) {entry : CommittedAlarmEvaluation}
    {more : List CommittedAlarmEvaluation} (fromActive : entry.fromActiveOccurrence = true)
    (due : ∀ alarm ∈ more, alarm.fromActiveOccurrence = false)
    (whole : result.effects = (entry :: more).map evaluationEffect) :
    result.activeReports = [activeReport entry.alarmId entry.result] := by
  have rest : (more.map evaluationEffect).filter (·.stage = .activeLifecycle) = [] := by
    refine List.filter_eq_nil_iff.mpr fun effect mem => ?_
    obtain ⟨alarm, listed, rfl⟩ := List.mem_map.mp mem
    simp [evaluationEffect, due alarm listed]
  have first : (evaluationEffect entry).stage = .activeLifecycle := by
    simp [evaluationEffect, fromActive]
  rw [RuntimeTickResult.activeReports, whole, List.map_cons, List.filter_cons_of_pos (by simp [first]),
    rest]
  rfl

/-- The due pass behind a stage that reported one entry. -/
theorem afterStage_reports {alarms : List StoredAlarmDefinition}
    {entry : CommittedAlarmEvaluation} {evaluation : CommittedScheduleEvaluation}
    {result : RuntimeTickResult} {journal : PersistentAlarmState} {final : Register}
    (record : ValidRecord current) (ids : ValidIds alarms) (inStep : InStep current evaluation)
    (stored : current.snapshot.occurrenceState = journal) (first : evaluation.alarms = [entry])
    (fromActive : entry.fromActiveOccurrence = true)
    (reports : result.effects = (afterStage observation.wallUtcSeconds
      observation.monotonicSeconds alarms journal current (.ok evaluation)).1.alarms.map
        evaluationEffect)
    (ends : final = (afterStage observation.wallUtcSeconds
      observation.monotonicSeconds alarms journal current (.ok evaluation)).2) :
    result.activeReports = [activeReport entry.alarmId entry.result] ∧
      ∃ evaluated, HealthyPass observation.wallUtcSeconds observation.monotonicSeconds
        (sortAlarms alarms) current evaluation (evaluated, final) := by
  subst stored ends
  have pass := @exec_evaluateAlarms observation.wallUtcSeconds observation.monotonicSeconds current
    evaluation (sortAlarms alarms) record inStep fun alarm mem => ids alarm (mem_sortAlarms.mp mem)
  obtain ⟨more, whole, due⟩ := pass.entries
  refine ⟨activeReports_evaluation result fromActive due ?_, _, pass⟩
  simp only [reports, afterStage, whole, first, List.singleton_append]

/-- The tick that owes none. -/
theorem exec_unlatchedTick (record : ValidRecord current)
    (held : current.snapshot.occurrenceState.active = some active) :
    let done := advanceActive current.snapshot.occurrenceState observation.monotonicSeconds
    let run := exec healthyRegister (evaluationTick observation {}) current
    (Settles current done →
        run.1.activeReports = [activeReport (reportedAlarmId active.occurrenceId) done.1] ∧
        ∃ evaluation final, HealthyPass observation.wallUtcSeconds observation.monotonicSeconds
          (sortAlarms current.snapshot.alarms) (settledRecord current done) evaluation
          (final, run.2)) ∧
      (¬ Settles current done → run.1.activeReports ≠ [] ∧ run.2 = current) := by
  intro done run
  have stage := @exec_settleEvaluation current current.evaluation (activeEntry active done.1) done.2
    record (inStep_evaluation current) advanceActive_changes
  generalize settled : exec healthyRegister (settleEvaluation done.2 current.evaluation
    (activeEntry active done.1)) current = ended at stage
  have evaluated := @exec_evaluate_active current active observation.wallUtcSeconds
    observation.monotonicSeconds [] record held done rfl ended settled
  have reports : run.1.effects = (exec healthyRegister (evaluateCommittedSchedule
      observation.wallUtcSeconds observation.monotonicSeconds true []) current).1.alarms.map
        evaluationEffect := by
    change (exec healthyRegister (evaluationTick observation {}) current).1.effects = _
    rw [evaluationTick, exec_bind]
    rfl
  have final : run.2 = (exec healthyRegister (evaluateCommittedSchedule
      observation.wallUtcSeconds observation.monotonicSeconds true []) current).2 := by
    change (exec healthyRegister (evaluationTick observation {}) current).2 = _
    rw [evaluationTick, exec_bind]
    rfl
  rw [evaluated] at reports final
  cases stage with
  | unusable status =>
      refine ⟨fun settles => absurd status settles.1, fun _ => ⟨?_, final⟩⟩
      rw [activeReports_evaluation run.1 rfl (List.forall_mem_nil _) reports]
      simp
  | refused usable persists refusal =>
      refine ⟨fun settles => absurd (settles.2 persists) refusal, fun _ => ⟨?_, final⟩⟩
      rw [activeReports_evaluation run.1 rfl (List.forall_mem_nil _) reports]
      simp
  | quiet usable keeps =>
      have keeps : done.1.persistBeforeEffects = false := keeps
      have settles : Settles current done := ⟨usable, by simp [keeps]⟩
      refine ⟨fun _ => ?_, fun unsettled => absurd settles unsettled⟩
      have same : settledRecord current done = current := by simp [settledRecord, keeps]
      have kept : current.snapshot.occurrenceState = done.2 :=
        ((advanceActive_outcome held observation.monotonicSeconds).kept keeps).symm
      obtain ⟨reported, evaluated, pass⟩ := afterStage_reports record record.schedule.validIds
        (inStep_evaluation current).push kept rfl rfl reports final
      exact ⟨reported, _, evaluated, by rwa [same]⟩
  | stored usable persists accepted =>
      have persists : done.1.persistBeforeEffects = true := persists
      have settles : Settles current done := ⟨usable, fun _ => accepted⟩
      refine ⟨fun _ => ?_, fun unsettled => absurd settles unsettled⟩
      have same : settledRecord current done = current.withJournal done.2 := by
        simp [settledRecord, persists]
      obtain ⟨reported, evaluated, pass⟩ := afterStage_reports (same ▸ settles.record record)
        record.schedule.validIds (inStep_evaluation current).commit.push rfl rfl rfl reports final
      exact ⟨reported, _, evaluated, by rwa [same]⟩

end

/-! ### One crossed alarm -/

section

variable {current latched : Register} {wallUtcSeconds monotonicSeconds : Int64}
  {recovery : InvalidTimeRecoveryResult} {evaluation : CommittedScheduleEvaluation}
  {unlatched : CommittedScheduleEvaluation × Register} {alarm : StoredAlarmDefinition}

theorem eq_singleton {α : Type} {elements : List α} {a : α} (distinct : elements.Nodup)
    (mem : a ∈ elements) (only : ∀ b ∈ elements, b = a) : elements = [a] := by
  cases elements with
  | nil => cases mem
  | cons first rest =>
      obtain rfl := only first List.mem_cons_self
      cases rest with
      | nil => rfl
      | cons second more =>
          obtain rfl := only second (by simp)
          simp at distinct

/-- Neither path does anything where no occurrence is crossed. -/
theorem paths_uncrossed
    (reconciled : HealthyReconciliation current wallUtcSeconds monotonicSeconds (recovery, latched))
    (pass : HealthyPass wallUtcSeconds monotonicSeconds (sortAlarms current.snapshot.alarms) current
      evaluation unlatched)
    (none : current.snapshot.occurrenceState.active = none → ∀ alarm ∈ current.snapshot.alarms,
      crossedNow current.snapshot.occurrenceState wallUtcSeconds alarm = false) :
    latched = current ∧ unlatched.2 = current := by
  constructor
  · cases reconciled with
    | reconciled status batch =>
        obtain ⟨mem, crossed⟩ := mem_crossedCandidates.mp (List.mem_of_getLast? batch.last)
        rw [none batch.idle _ mem] at crossed
        cases crossed
    | _ => rfl
  · exact pass.uncrossed fun idle alarm mem => none idle alarm (mem_sortAlarms.mp mem)

/-- The due pass, or a reconciliation, would record the alarm's occurrence missed. -/
def WouldMiss (current : Register) (wallUtcSeconds : Int64) (alarm : StoredAlarmDefinition) :
    Prop :=
  canTrackTerminal current.snapshot.occurrenceState alarm.id = true ∧
    (∃ lateness, checkedElapsed wallUtcSeconds alarm.scheduledUtcSeconds = some lateness ∧
      kLateGraceSeconds < lateness) ∧
    current.generation ≠ uint64Max

/-- What a path does to the only crossed alarm; `Missed` says how it records a miss. -/
inductive SingleOutcome (current : Register) (wallUtcSeconds monotonicSeconds : Int64)
    (alarm : StoredAlarmDefinition) (Missed : PersistentAlarmState → Prop) (final : Register) :
    Prop where
  | left (same : final = current)
      (blocked : canTrackTerminal current.snapshot.occurrenceState alarm.id = false ∨
        checkedElapsed wallUtcSeconds alarm.scheduledUtcSeconds = none ∨
        current.generation = uint64Max)
  | admitted {lateness : Int64}
      (tracked : canTrackTerminal current.snapshot.occurrenceState alarm.id = true)
      (room : current.generation ≠ uint64Max)
      (elapsed : checkedElapsed wallUtcSeconds alarm.scheduledUtcSeconds = some lateness)
      (grace : lateness ≤ kLateGraceSeconds)
      (journal : final.journal = { current.snapshot.occurrenceState with
        active := some (admittedOccurrence alarm wallUtcSeconds monotonicSeconds) })
  | missed (would : WouldMiss current wallUtcSeconds alarm) (recorded : Missed final.journal)

/-- Two paths that record misses differently agree exactly where nothing is missed. -/
theorem SingleOutcome.same_iff {Missed Other : PersistentAlarmState → Prop}
    (first : SingleOutcome current wallUtcSeconds monotonicSeconds alarm Missed latched)
    (second : SingleOutcome current wallUtcSeconds monotonicSeconds alarm Other unlatched.2)
    (differ : ∀ journal, Missed journal → ¬ Other journal) :
    latched.journal = unlatched.2.journal ↔ ¬ WouldMiss current wallUtcSeconds alarm := by
  have excludes {lateness : Int64}
      (elapsed : checkedElapsed wallUtcSeconds alarm.scheduledUtcSeconds = some lateness)
      (grace : lateness ≤ kLateGraceSeconds) : ¬ WouldMiss current wallUtcSeconds alarm := by
    rintro ⟨-, ⟨other, known, late⟩, -⟩
    obtain rfl := Option.some.inj (known.symm.trans elapsed)
    exact absurd grace (Int64.not_le.mpr late)
  have free (blocked : canTrackTerminal current.snapshot.occurrenceState alarm.id = false ∨
      checkedElapsed wallUtcSeconds alarm.scheduledUtcSeconds = none ∨
      current.generation = uint64Max) : ¬ WouldMiss current wallUtcSeconds alarm := by
    rintro ⟨tracked, ⟨lateness, known, -⟩, room⟩
    rcases blocked with full | unknown | exhausted
    · rw [full] at tracked
      cases tracked
    · rw [unknown] at known
      cases known
    · exact room exhausted
  cases first with
  | left same blocked =>
      cases second with
      | left same' =>
          rw [same, same']
          exact iff_of_true rfl (free blocked)
      | admitted tracked room elapsed => simp [tracked, room, elapsed] at blocked
      | missed would => exact absurd would (free blocked)
  | admitted tracked room elapsed grace journal =>
      cases second with
      | left _ blocked => simp [tracked, room, elapsed] at blocked
      | admitted _ _ _ _ journal' =>
          rw [journal, journal']
          exact iff_of_true rfl (excludes elapsed grace)
      | missed would => exact absurd would (excludes elapsed grace)
  | missed would recorded =>
      cases second with
      | left _ blocked => exact absurd would (free blocked)
      | admitted _ _ elapsed grace => exact absurd would (excludes elapsed grace)
      | missed _ recorded' =>
          refine iff_of_false (fun same => ?_) (not_not.mpr would)
          rw [← same] at recorded'
          exact differ _ recorded recorded'

theorem HealthyPass.single {rest : List StoredAlarmDefinition} (record : ValidRecord current)
    (pass : HealthyPass wallUtcSeconds monotonicSeconds (alarm :: rest) current evaluation unlatched)
    (idle : current.snapshot.occurrenceState.active = none)
    (crossed : crossedNow current.snapshot.occurrenceState wallUtcSeconds alarm = true)
    (others : ∀ other ∈ rest,
      crossedNow current.snapshot.occurrenceState wallUtcSeconds other = false) :
    SingleOutcome current wallUtcSeconds monotonicSeconds alarm
      (⟨makeOccurrenceId alarm.definition, .invalidTime⟩ ∉ ·.terminal) unlatched.2 := by
  cases pass with
  | unusable decided status => exact .left rfl (.inr (.inl ((decided_outcome decided).unknown status)))
  | quiet decided usable keeps later =>
      have same := later.uncrossed fun _ => others
      exact .left same (.inl ((decided_outcome decided).full keeps usable idle crossed))
  | refused decided usable persists last => exact .left rfl (.inr (.inr last))
  | stored decided usable persists valid room later =>
      obtain ⟨tracked, lateness, elapsed, ⟨late, -, missed⟩ | ⟨grace, -, admitted⟩⟩ :=
        (decided_outcome decided).journals persists
      · obtain rfl := missed
        refine .missed ⟨tracked, ⟨lateness, elapsed, late⟩, room⟩ ?_
        have absent : (⟨makeOccurrenceId alarm.definition, .invalidTime⟩ : TerminalOccurrence) ∉
            (missOccurrence current.snapshot.occurrenceState alarm .forwardJump).terminal := by
          intro mem
          rcases mem_appendTerminal mem with old | same
          · exact unrecorded_of_crossed crossed (List.mem_map_of_mem old)
          · cases same
        rw [(later.record (record.withJournal valid)).journal_eq]
        exact later.forwards absent
      · obtain rfl := admitted
        have same := later.uncrossed fun busy => by cases busy
        refine .admitted tracked room elapsed grace ?_
        rw [same, withJournal_journal]

/-- A batch of one. -/
theorem reconcileJournal_single {journal : PersistentAlarmState} (idle : journal.active = none)
    (newest : StoredAlarmDefinition) (newestRings : Bool) :
    reconcileJournal journal [] newest newestRings wallUtcSeconds monotonicSeconds =
      if canTrackTerminal journal newest.id then
        some (if newestRings then
          { journal with
            active := some (admittedOccurrence newest wallUtcSeconds monotonicSeconds) }
        else missOccurrence journal newest .invalidTime)
      else none := by
  cases room : canTrackTerminal journal newest.id <;> cases newestRings <;>
    simp [reconcileJournal, journalMissed, journalTerminal, journalCanAccept, beginRecoveredRing,
      room, idle, guard, missOccurrence, admittedOccurrence]

theorem HealthyReconciliation.single
    (reconciled : HealthyReconciliation current wallUtcSeconds monotonicSeconds (recovery, latched))
    (idle : current.snapshot.occurrenceState.active = none)
    (candidates : crossedCandidates current.snapshot wallUtcSeconds = [alarm])
    (crossed : crossedNow current.snapshot.occurrenceState wallUtcSeconds alarm = true) :
    SingleOutcome current wallUtcSeconds monotonicSeconds alarm
      (⟨makeOccurrenceId alarm.definition, .invalidTime⟩ ∈ ·.terminal) latched := by
  have newestIs {newest : StoredAlarmDefinition}
      (last : (crossedCandidates current.snapshot wallUtcSeconds).getLast? = some newest) :
      newest = alarm := by
    rw [candidates] at last
    exact (Option.some.inj last).symm
  cases reconciled with
  | deferred _ busy => exact absurd idle busy
  | nothing _ _ empty =>
      rw [candidates] at empty
      cases empty
  | unknown _ _ last elapsed =>
      obtain rfl := newestIs last
      exact .left rfl (.inr (.inl elapsed))
  | full _ _ last elapsed overflow =>
      obtain rfl := newestIs last
      rw [candidates, List.dropLast_singleton, reconcileJournal_single idle] at overflow
      refine .left rfl (.inl ?_)
      by_contra tracked
      rw [if_pos (by simpa using tracked)] at overflow
      cases overflow
  | refused _ batch exhausted => exact .left rfl (.inr (.inr exhausted))
  | reconciled _ batch room valid =>
      obtain rfl := newestIs batch.last
      have accepted := batch.accepted
      rw [candidates, List.dropLast_singleton, reconcileJournal_single idle] at accepted
      split at accepted
      · rename_i tracked
        obtain rfl := Option.some.inj accepted
        rcases Int64.le_or_lt _ kLateGraceSeconds with grace | late
        · refine .admitted tracked room batch.elapsed grace ?_
          rw [withJournal_journal, if_pos (decide_eq_true grace)]
        · refine .missed ⟨tracked, ⟨_, batch.elapsed, late⟩, room⟩ ?_
          rw [withJournal_journal, if_neg (by simpa using late)]
          have fresh := unrecorded_of_crossed crossed
          exact List.mem_of_getLast? (appendTerminal_getLast? fresh)
      · cases accepted

/-- With a single crossed occurrence the two paths differ exactly where they record it
missed: each gives its own reason. -/
theorem paths_crossed (record : ValidRecord current)
    (reconciled : HealthyReconciliation current wallUtcSeconds monotonicSeconds (recovery, latched))
    (pass : HealthyPass wallUtcSeconds monotonicSeconds (sortAlarms current.snapshot.alarms) current
      evaluation unlatched)
    (idle : current.snapshot.occurrenceState.active = none) (mem : alarm ∈ current.snapshot.alarms)
    (crossed : crossedNow current.snapshot.occurrenceState wallUtcSeconds alarm = true)
    (only : ∀ other ∈ current.snapshot.alarms,
      crossedNow current.snapshot.occurrenceState wallUtcSeconds other = true → other = alarm) :
    latched.journal = unlatched.2.journal ↔ ¬ WouldMiss current wallUtcSeconds alarm := by
  have candidates : crossedCandidates current.snapshot wallUtcSeconds = [alarm] := by
    have distinct := @nodup_crossedCandidates wallUtcSeconds _ record.schedule.ids
    refine eq_singleton (List.Nodup.of_map _ distinct) (mem_crossedCandidates.mpr ⟨mem, crossed⟩) ?_
    intro other listed
    obtain ⟨known, isCrossed⟩ := mem_crossedCandidates.mp listed
    exact only other known isCrossed
  obtain ⟨first, rest, whole⟩ := List.append_of_mem (mem_sortAlarms.mpr mem)
  have distinct : (sortAlarms current.snapshot.alarms).Nodup :=
    ((sortAlarms_perm _).nodup_iff).mpr (List.Nodup.of_map _ record.schedule.ids)
  rw [whole] at distinct pass
  have others : ∀ other ∈ first ++ rest,
      crossedNow current.snapshot.occurrenceState wallUtcSeconds other = false := by
    intro other listed
    by_contra isCrossed
    have known : other ∈ sortAlarms current.snapshot.alarms := by
      rw [whole]
      exact List.perm_middle.mem_iff.mpr (List.mem_cons_of_mem _ listed)
    obtain rfl := only other (mem_sortAlarms.mp known) (by simpa using isCrossed)
    exact (List.nodup_cons.mp (List.nodup_middle.mp distinct)).1 listed
  obtain ⟨between, pass⟩ := pass.skip fun other early => others other (List.mem_append_left _ early)
  have due := pass.single record idle crossed fun other late =>
    others other (List.mem_append_right _ late)
  exact (reconciled.single idle candidates crossed).same_iff due fun journal recorded absent =>
    absent recorded

end

/-! ### Eviction -/

section

variable {state : PersistentAlarmState} {active : ActiveOccurrence} {wallUtcSeconds : Int64}
  {alarm : StoredAlarmDefinition}

/-- A record that a new one pushes out was the oldest of a full list. -/
theorem oldest_of_evicted {occurrence : TerminalOccurrence} {occurrenceId : Text}
    (few : state.terminal.length ≤ kRecentTerminalRetention)
    (held : occurrenceId ∈ state.terminal.map (·.occurrenceId))
    (gone : occurrenceId ∉ (appendTerminal state occurrence).terminal.map (·.occurrenceId)) :
    state.terminal.length = kRecentTerminalRetention ∧
      state.terminal.head?.map (·.occurrenceId) = some occurrenceId := by
  unfold appendTerminal at gone
  split at gone
  · exact absurd held gone
  rcases Nat.lt_or_eq_of_le few with room | full
  · have kept : (state.terminal ++ [occurrence]).length - kRecentTerminalRetention = 0 := by
      simp only [List.length_append, List.length_singleton]
      omega
    simp only [kept, List.drop_zero, List.map_append, List.mem_append, not_or] at gone
    exact absurd held gone.1
  · refine ⟨full, ?_⟩
    have one : (state.terminal ++ [occurrence]).length - kRecentTerminalRetention = 1 := by
      simp only [List.length_append, List.length_singleton]
      omega
    dsimp only at gone
    rw [one] at gone
    cases terminal : state.terminal with
    | nil => simp [terminal] at held
    | cons oldest rest =>
        simp only [terminal, List.cons_append, List.drop_succ_cons, List.drop_zero,
          List.map_append, List.mem_append, not_or] at gone
        rw [terminal, List.map_cons] at held
        rcases List.mem_cons.mp held with same | later
        · simp [same]
        · exact absurd later gone.1

theorem evicted_of_oldest {occurrence : TerminalOccurrence} {occurrenceId : Text}
    (distinct : (state.terminal.map (·.occurrenceId)).Nodup)
    (fresh : occurrence.occurrenceId ∉ state.terminal.map (·.occurrenceId))
    (full : state.terminal.length = kRecentTerminalRetention)
    (oldest : state.terminal.head?.map (·.occurrenceId) = some occurrenceId) :
    occurrenceId ∉ (appendTerminal state occurrence).terminal.map (·.occurrenceId) := by
  have absent : ¬ state.terminal.any (·.occurrenceId == occurrence.occurrenceId) = true := by
    intro listed
    exact fresh (isTerminal_iff.mp listed)
  have one : (state.terminal ++ [occurrence]).length - kRecentTerminalRetention = 1 := by
    simp only [List.length_append, List.length_singleton]
    omega
  rw [appendTerminal, if_neg absent]
  dsimp only
  rw [one]
  cases terminal : state.terminal with
  | nil => simp [terminal] at oldest
  | cons first rest =>
      rw [terminal] at oldest distinct fresh
      obtain rfl : first.occurrenceId = occurrenceId := by simpa using oldest
      rw [List.map_cons] at distinct fresh
      simp only [List.cons_append, List.drop_succ_cons, List.drop_zero, List.map_append,
        List.mem_append, not_or]
      refine ⟨(List.nodup_cons.mp distinct).1, ?_⟩
      rintro same
      obtain same := List.mem_singleton.mp same
      exact fresh (List.mem_cons.mpr (.inl same.symm))

/-- The journal once the active occurrence's watermark is raised. -/
def raised (state : PersistentAlarmState) (active : ActiveOccurrence) : PersistentAlarmState :=
  recordTerminalHighWatermark state active.alarmId active.scheduledUtcSeconds

/-- Closing the active occurrence evicts the record of a due one that no watermark
covers. -/
structure Uncovers (state : PersistentAlarmState) (active : ActiveOccurrence)
    (wallUtcSeconds : Int64) (alarm : StoredAlarmDefinition) : Prop where
  enabled : alarm.enabled = true
  due : alarm.scheduledUtcSeconds ≤ wallUtcSeconds
  full : state.terminal.length = kRecentTerminalRetention
  oldest : state.terminal.head?.map (·.occurrenceId) = some (makeOccurrenceId alarm.definition)
  uncovered : atOrBelowWatermark (raised state active) alarm.id alarm.scheduledUtcSeconds = false

theorem findHighWatermark_closeActive (reason : TerminalReason) (alarmId : Text) :
    findHighWatermark (closeActive state active reason) alarmId =
      findHighWatermark (raised state active) alarmId := by
  rw [findHighWatermark, closeActive, raised]
  dsimp only
  rw [appendTerminal_watermarks]
  rfl

/-- With everything due accounted for, closing the active occurrence makes an alarm
crossed exactly where it uncovers it. -/
theorem crossedNow_closeActive_iff (valid : ValidJournal state) (held : state.active = some active)
    (settled : alarm.enabled = true → alarm.scheduledUtcSeconds ≤ wallUtcSeconds →
      Accounted state alarm) :
    crossedNow (closeActive state active .timedOut) wallUtcSeconds alarm = true ↔
      Uncovers state active wallUtcSeconds alarm := by
  have covers : atOrBelowWatermark (closeActive state active .timedOut) alarm.id
      alarm.scheduledUtcSeconds =
        atOrBelowWatermark (raised state active) alarm.id alarm.scheduledUtcSeconds := by
    rw [atOrBelowWatermark, findHighWatermark_closeActive]
    rfl
  have fresh := valid.activeNotTerminal active held
  rw [crossedNow_iff]
  constructor
  · rintro ⟨enabled, due, unrecorded, uncovered⟩
    have gone : makeOccurrenceId alarm.definition ∉
        (closeActive state active .timedOut).terminal.map (·.occurrenceId) := by
      intro mem
      rw [isTerminal_iff.mpr mem] at unrecorded
      cases unrecorded
    rcases settled enabled due with ⟨a, isActive, same⟩ | recorded | covered
    · rw [held] at isActive
      obtain rfl := Option.some.inj isActive
      rw [← same] at gone
      exact absurd (recorded_appendTerminal_self _ _) gone
    · have evicted := @oldest_of_evicted (raised state active) ⟨active.occurrenceId, .timedOut⟩ _
        valid.terminalCount (isTerminal_iff.mp recorded) gone
      exact ⟨enabled, due, evicted.1, evicted.2, covers ▸ uncovered⟩
    · have kept := @atOrBelowWatermark_record state _ _ active.alarmId active.scheduledUtcSeconds
        ⟨active.occurrenceId, .timedOut⟩ covered
      change atOrBelowWatermark (closeActive state active .timedOut) _ _ = true at kept
      rw [uncovered] at kept
      cases kept
  · rintro ⟨enabled, due, full, oldest, uncovered⟩
    refine ⟨enabled, due, ?_, covers.trans uncovered⟩
    have gone := @evicted_of_oldest (raised state active) ⟨active.occurrenceId, .timedOut⟩ _
      valid.terminalIds fresh full oldest
    refine Bool.not_eq_true _ |>.mp fun recorded => ?_
    exact gone (isTerminal_iff.mp recorded)

end

/-! ### Agreement -/

/-- The closed record's due occurrence is recorded missed once more: its own record has
been evicted, it is late beyond the grace, and the journal can still take it. -/
structure MissedAgain (current : Register) (active : ActiveOccurrence) (wallUtcSeconds : Int64)
    (alarm : StoredAlarmDefinition) : Prop where
  uncovers : Uncovers current.snapshot.occurrenceState active wallUtcSeconds alarm
  late : ∃ lateness, checkedElapsed wallUtcSeconds alarm.scheduledUtcSeconds = some lateness ∧
    kLateGraceSeconds < lateness
  tracked : canTrackTerminal (raised current.snapshot.occurrenceState active) alarm.id = true
  generation : current.generation + 1 ≠ uint64Max

/-- Where the two paths agree. -/
structure PathsAgree (current : Register) (observation : RuntimeTickObservation)
    (active : ActiveOccurrence) : Prop where
  /-- The monotonic clock is usable. -/
  clock : checkedElapsed observation.monotonicSeconds active.firstRingMonotonicSeconds ≠ none
  /-- The occurrence id up to its first separator is the alarm id. -/
  name : reportedAlarmId active.occurrenceId = active.alarmId
  /-- A transition has a generation left. -/
  generation : LifetimeOver active observation.monotonicSeconds ∨
    SnoozeOver active observation.monotonicSeconds → current.generation ≠ uint64Max
  /-- A timeout has room in the watermark table. -/
  table : LifetimeOver active observation.monotonicSeconds →
    canTrackTerminal current.snapshot.occurrenceState active.alarmId = true
  /-- A timeout evicts nothing that would be missed again. -/
  evicted : LifetimeOver active observation.monotonicSeconds →
    ∀ alarm ∈ current.snapshot.alarms,
      ¬ MissedAgain current active observation.wallUtcSeconds alarm

section

variable {current latched : Register} {active : ActiveOccurrence}
  {observation : RuntimeTickObservation} {recovery : InvalidTimeRecoveryResult}
  {evaluation : CommittedScheduleEvaluation} {unlatched : CommittedScheduleEvaluation × Register}

/-- The transition can be made where the clock is usable and the store has room. -/
theorem settles_iff (record : ValidRecord current)
    (held : current.snapshot.occurrenceState.active = some active) :
    Settles current
        (advanceActive current.snapshot.occurrenceState observation.monotonicSeconds) ↔
      checkedElapsed observation.monotonicSeconds active.firstRingMonotonicSeconds ≠ none ∧
      (LifetimeOver active observation.monotonicSeconds ∨
        SnoozeOver active observation.monotonicSeconds → current.generation ≠ uint64Max) ∧
      (LifetimeOver active observation.monotonicSeconds →
        canTrackTerminal current.snapshot.occurrenceState active.alarmId = true) := by
  have outcome := advanceActive_outcome held observation.monotonicSeconds
  generalize advanceActive current.snapshot.occurrenceState observation.monotonicSeconds = done
    at outcome
  cases outcome with
  | unusable status unknown => simp [Settles, status, unknown]
  | expired usable persists past =>
      have known : checkedElapsed observation.monotonicSeconds
          active.firstRingMonotonicSeconds ≠ none := by
        obtain ⟨elapsed, known, -⟩ := past
        simp [known]
      simp only [Settles, usable, persists, record.writable,
        record.journal.closeActive_iff held, past, known, ne_eq, not_false_eq_true, true_or,
        true_implies, true_and]
      exact and_comm
  | waits usable keeps known lives still =>
      simp [Settles, usable, keeps, known, lives, still]
  | rerung usable persists known lives ended =>
      have valid := record.journal.rering held
      simp [Settles, usable, persists, known, lives, ended, record.writable, valid]

/-- A timeout uncovers one alarm at most. -/
theorem Uncovers.unique {first second : StoredAlarmDefinition} {journal : PersistentAlarmState}
    {alarms : List StoredAlarmDefinition} {wallUtcSeconds : Int64}
    (distinct : (alarms.map (·.id)).Nodup) (memFirst : first ∈ alarms) (memSecond : second ∈ alarms)
    (one : Uncovers journal active wallUtcSeconds first)
    (other : Uncovers journal active wallUtcSeconds second) : second = first := by
  have same := Option.some.inj (other.oldest.symm.trans one.oldest)
  exact List.inj_on_of_nodup_map distinct memSecond memFirst (makeOccurrenceId_inj same).1

theorem wouldMiss_iff {alarm : StoredAlarmDefinition} {wallUtcSeconds : Int64}
    (uncovers : Uncovers current.snapshot.occurrenceState active wallUtcSeconds alarm) :
    WouldMiss (current.withJournal
        (closeActive current.snapshot.occurrenceState active .timedOut)) wallUtcSeconds alarm ↔
      MissedAgain current active wallUtcSeconds alarm := by
  have table : canTrackTerminal (closeActive current.snapshot.occurrenceState active .timedOut)
      alarm.id = canTrackTerminal (raised current.snapshot.occurrenceState active) alarm.id := by
    rw [canTrackTerminal, closeActive]
    dsimp only
    rw [appendTerminal_watermarks]
    rfl
  constructor
  · rintro ⟨tracked, late, generation⟩
    exact ⟨uncovers, late, table ▸ tracked, generation⟩
  · rintro ⟨-, late, tracked, generation⟩
    exact ⟨table.trans tracked, late, generation⟩

/-- Behind the stage of the active occurrence the journals agree, but for a miss that
a timeout brings about. -/
theorem settled_journals_iff (record : ValidRecord current)
    (held : current.snapshot.occurrenceState.active = some active)
    (settled : ∀ alarm ∈ current.snapshot.alarms, alarm.enabled = true →
      alarm.scheduledUtcSeconds ≤ observation.wallUtcSeconds →
        Accounted current.snapshot.occurrenceState alarm)
    (settles : Settles current
      (advanceActive current.snapshot.occurrenceState observation.monotonicSeconds))
    (reconciled : HealthyReconciliation
      (settledRecord current
        (advanceActive current.snapshot.occurrenceState observation.monotonicSeconds))
      observation.wallUtcSeconds observation.monotonicSeconds (recovery, latched))
    (pass : HealthyPass observation.wallUtcSeconds observation.monotonicSeconds
      (sortAlarms current.snapshot.alarms)
      (settledRecord current
        (advanceActive current.snapshot.occurrenceState observation.monotonicSeconds))
      evaluation unlatched) :
    latched.journal = unlatched.2.journal ↔
      (LifetimeOver active observation.monotonicSeconds →
        ∀ alarm ∈ current.snapshot.alarms,
          ¬ MissedAgain current active observation.wallUtcSeconds alarm) := by
  have after := settles.record record
  have outcome := advanceActive_outcome held observation.monotonicSeconds
  generalize advanceActive current.snapshot.occurrenceState observation.monotonicSeconds = done
    at *
  cases outcome with
  | unusable status => exact absurd status settles.1
  | waits usable keeps known lives still =>
      rw [settledRecord, keeps] at reconciled pass
      obtain ⟨rfl, unmoved⟩ := paths_uncrossed reconciled pass fun idle => by
        rw [if_neg Bool.false_ne_true, held] at idle
        cases idle
      rw [unmoved]
      exact iff_of_true rfl fun past => absurd past lives
  | rerung usable persists known lives ended =>
      rw [settledRecord, persists] at reconciled pass
      obtain ⟨rfl, unmoved⟩ := paths_uncrossed reconciled pass fun idle => by cases idle
      rw [unmoved]
      exact iff_of_true rfl fun past => absurd past lives
  | expired usable persists past =>
      rw [settledRecord, persists] at reconciled pass after
      have crossed_iff (alarm : StoredAlarmDefinition) (mem : alarm ∈ current.snapshot.alarms) :=
        crossedNow_closeActive_iff record.journal held (settled alarm mem)
      by_cases some : ∃ alarm ∈ current.snapshot.alarms,
          Uncovers current.snapshot.occurrenceState active observation.wallUtcSeconds alarm
      · obtain ⟨alarm, mem, uncovers⟩ := some
        have crossed := (crossed_iff alarm mem).mpr uncovers
        rw [paths_crossed after reconciled pass rfl mem crossed fun other known isCrossed =>
          uncovers.unique record.schedule.ids mem known ((crossed_iff other known).mp isCrossed)]
        constructor
        · intro spared _ other known again
          obtain rfl := uncovers.unique record.schedule.ids mem known again.uncovers
          exact spared ((wouldMiss_iff uncovers).mpr again)
        · intro spared would
          exact spared past alarm mem ((wouldMiss_iff uncovers).mp would)
      · obtain ⟨rfl, unmoved⟩ := paths_uncrossed reconciled pass fun _ alarm mem => by
          refine Bool.not_eq_true _ |>.mp fun crossed => ?_
          exact some ⟨alarm, mem, (crossed_iff alarm mem).mp crossed⟩
        rw [unmoved]
        exact iff_of_true rfl fun _ alarm mem again => some ⟨alarm, mem, again.uncovers⟩

end

/-- A tick of a handled boot with nothing due, over healthy storage: with and without a
reconciliation owed it leaves the same journal and reports the same of the active
occurrence, exactly under `PathsAgree`. -/
theorem lifecycle_paths_agree_iff {slots : Slots} {active : ActiveOccurrence}
    (state : RuntimeCoordinatorState) {observation : RuntimeTickObservation}
    (loaded : (scanSlots slots).status = .loaded)
    (held : (scanSlots slots).snapshot.occurrenceState.active = some active)
    (timeValid : observation.timeValid = true) (handled : isBootPending state observation = false)
    (settled : ∀ alarm ∈ (scanSlots slots).snapshot.alarms, alarm.enabled = true →
      alarm.scheduledUtcSeconds ≤ observation.wallUtcSeconds →
        Accounted (scanSlots slots).snapshot.occurrenceState alarm) :
    let latched := exec (performStore {})
      (runRuntimeTick { state with reconciliationPending := true } observation) slots
    let unlatched := exec (performStore {})
      (runRuntimeTick { state with reconciliationPending := false } observation) slots
    (latched.2.journal = unlatched.2.journal ∧
        latched.1.1.activeReports = unlatched.1.1.activeReports) ↔
      PathsAgree (scanSlots slots) observation active := by
  intro latched unlatched
  have record := validRecord_scanSlots loaded
  have runLatched : runRuntimeTick { state with reconciliationPending := true } observation =
      latchedTick { state with reconciliationPending := true } observation := by
    simp [runRuntimeTick, timeValid]
  have runUnlatched : runRuntimeTick { state with reconciliationPending := false } observation =
      (evaluationTick observation {} >>= fun result =>
        Program.done (result, { state with reconciliationPending := false })) := by
    have same : isBootPending { state with reconciliationPending := false } observation = false :=
      handled
    simp [runRuntimeTick, timeValid, same]
  have latchedRun : latched.1 = (exec healthyRegister
        (latchedTick { state with reconciliationPending := true } observation)
        (scanSlots slots)).1 ∧
      scanSlots latched.2 = (exec healthyRegister
        (latchedTick { state with reconciliationPending := true } observation)
        (scanSlots slots)).2 := by
    rw [← runLatched]
    exact exec_healthy _ slots
  have unlatchedRun : unlatched.1.1 = (exec healthyRegister (evaluationTick observation {})
        (scanSlots slots)).1 ∧
      scanSlots unlatched.2 = (exec healthyRegister (evaluationTick observation {})
        (scanSlots slots)).2 := by
    obtain ⟨result, final⟩ := exec_healthy (runRuntimeTick
      { state with reconciliationPending := false } observation) slots
    constructor
    · rw [show unlatched.1 = _ from result, runUnlatched, exec_bind]
      rfl
    · rw [show scanSlots unlatched.2 = _ from final, runUnlatched, exec_bind]
      rfl
  rw [Slots.journal, Slots.journal, latchedRun.1, latchedRun.2, unlatchedRun.1, unlatchedRun.2]
  obtain ⟨firstSettled, firstStopped⟩ := @exec_latchedTick (scanSlots slots) active
    { state with reconciliationPending := true } observation record held handled
  obtain ⟨secondSettled, secondStopped⟩ := @exec_unlatchedTick (scanSlots slots) active observation
    record held
  have settles_iff := @settles_iff (scanSlots slots) active observation record held
  by_cases settles : Settles (scanSlots slots) (advanceActive
      (scanSlots slots).snapshot.occurrenceState observation.monotonicSeconds)
  · obtain ⟨reports, recovery, reconciled⟩ := firstSettled settles
    obtain ⟨reports', evaluation, final, pass⟩ := secondSettled settles
    obtain ⟨clock, generation, table⟩ := settles_iff.mp settles
    rw [reports, reports', settled_journals_iff record held settled settles reconciled pass]
    constructor
    · rintro ⟨evicted, same⟩
      have name := congrArg ActiveReport.alarmId (List.singleton_inj.mp same)
      exact ⟨clock, name.symm, generation, table, evicted⟩
    · intro agree
      rw [agree.name]
      exact ⟨agree.evicted, rfl⟩
  · rw [(firstStopped settles).1]
    refine iff_of_false (fun same => (secondStopped settles).1 same.2.symm) fun agree => ?_
    exact settles (settles_iff.mpr ⟨agree.clock, agree.generation, agree.table⟩)

/-! ### An alarm id with the separator -/

def ringingAlarm (id : Text) : StoredAlarmDefinition :=
  { id, scheduleRevision := 1, enabled := true, scheduledUtcSeconds := 1000 }

/-- One alarm, ringing since 1000. -/
def ringingSchedule (id : Text) : ScheduleSnapshot :=
  { revision := 1, timezoneRulesVersion := [0x31], alarms := [ringingAlarm id]
    occurrenceState := { active := some (admittedOccurrence (ringingAlarm id) 1000 5) } }

theorem accounted_ringingAlarm (id : Text) :
    Accounted (ringingSchedule id).occurrenceState (ringingAlarm id) := .inl ⟨_, rfl, rfl⟩

/-- Ten seconds into the ring the paths agree on the alarm `w`. -/
theorem lifecycle_paths_agree_ringing :
    let slots := firstStore (ringingSchedule [0x77])
    let latched := exec (performStore {})
      (runRuntimeTick { reconciliationPending := true } ⟨true, 1010, 15, []⟩) slots
    let unlatched := exec (performStore {})
      (runRuntimeTick { reconciliationPending := false } ⟨true, 1010, 15, []⟩) slots
    latched.2.journal = unlatched.2.journal ∧
      latched.1.1.activeReports = unlatched.1.1.activeReports := by
  have loaded := @scanSlots_firstStore (ringingSchedule [0x77]) rfl (by decide)
  have lives : ¬ LifetimeOver (admittedOccurrence (ringingAlarm [0x77]) 1000 5) 15 := by
    rintro ⟨elapsed, known, past⟩
    obtain rfl : (10 : Int64) = elapsed := Option.some.inj known
    revert past
    decide
  have unsnoozed : ¬ SnoozeOver (admittedOccurrence (ringingAlarm [0x77]) 1000 5) 15 := by
    rintro ⟨deadline, snoozed, -⟩
    cases snoozed
  have status : (scanSlots (firstStore (ringingSchedule [0x77]))).status = .loaded := by rw [loaded]
  have held : (scanSlots (firstStore (ringingSchedule [0x77]))).snapshot.occurrenceState.active =
      some (admittedOccurrence (ringingAlarm [0x77]) 1000 5) := by
    rw [loaded]
    rfl
  have agree := @lifecycle_paths_agree_iff (firstStore (ringingSchedule [0x77])) _ {}
    ⟨true, 1010, 15, []⟩ status held rfl rfl (by
      rw [loaded]
      intro alarm mem _ _
      obtain rfl := List.mem_singleton.mp mem
      exact accounted_ringingAlarm _)
  dsimp only at agree ⊢
  rw [agree, loaded]
  constructor
  · decide
  · decide
  · rintro (past | ended)
    · exact absurd past lives
    · exact absurd ended unsnoozed
  · intro past
    exact absurd past lives
  · intro past
    exact absurd past lives

/-- The alarm `a:b` is reported as itself on one path and as `a` on the other. -/
theorem separator_in_alarm_id_differs :
    let slots := firstStore (ringingSchedule [0x61, 0x3a, 0x62])
    let latched := exec (performStore {})
      (runRuntimeTick { reconciliationPending := true } ⟨true, 1010, 15, []⟩) slots
    let unlatched := exec (performStore {})
      (runRuntimeTick { reconciliationPending := false } ⟨true, 1010, 15, []⟩) slots
    ((scanSlots slots).status = .loaded ∧
        (scanSlots slots).snapshot = ringingSchedule [0x61, 0x3a, 0x62]) ∧
      (∀ alarm ∈ (ringingSchedule [0x61, 0x3a, 0x62]).alarms,
        Accounted (ringingSchedule [0x61, 0x3a, 0x62]).occurrenceState alarm) ∧
      latched.1.1.activeReports.map (·.alarmId) = [[0x61, 0x3a, 0x62]] ∧
      unlatched.1.1.activeReports.map (·.alarmId) = [[0x61]] := by
  intro slots latched unlatched
  have loaded := @scanSlots_firstStore (ringingSchedule [0x61, 0x3a, 0x62]) rfl (by decide)
  refine ⟨by rw [loaded]; exact ⟨rfl, rfl⟩, ?_, ?_, ?_⟩
  · intro alarm mem
    obtain rfl := List.mem_singleton.mp mem
    exact accounted_ringingAlarm _
  · rw [(exec_healthy _ slots).1, loaded]
    decide +kernel
  · rw [(exec_healthy _ slots).1, loaded]
    decide +kernel

end DawnDock
