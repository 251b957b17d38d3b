import DawnDock.Journal.Invariant

/-!
The journals clients commit.

`Plans` lists every journal a client of the store may hand to
`saveOccurrenceState`, by the stage that computes it, as the source's function
applied to the record the client last saw. What holds of all of them follows from
the step list: `Plans.cases` (steps of a tick, or one control step), `Plans.sound`
(the journal invariant is kept and the ledger advances) and `Plans.changed` (no
commit is a no-op).
-/

namespace DawnDock

/-- The observation with its boot id withheld once the boot is handled. -/
def RuntimeTickObservation.booted (observation : RuntimeTickObservation) (bootPending : Bool) :
    RuntimeTickObservation :=
  { observation with bootId := if bootPending then observation.bootId else [] }

/-- The stage of a client that commits a journal. -/
inductive CommitStage where
  | settle | active | due | reconcile | control | disable
deriving DecidableEq, Repr

/-- `commit_occurrence_transition` drops the edges of a commit that was durable
already; the other callers of the store expose them. -/
def CommitStage.forwards : CommitStage → Bool
  | .active | .due | .control => false
  | .settle | .reconcile | .disable => true

/-- A commit the user asked for. -/
def CommitStage.isControl : CommitStage → Bool
  | .control | .disable => true
  | _ => false

/-- The journals a stage commits on top of `snapshot`, with the alert edges they
carry. A boot is pending for the settle stage when a boot id is observed. -/
inductive Plans (snapshot : ScheduleSnapshot) (observation : RuntimeTickObservation) :
    CommitStage → List AlertEdge → PersistentAlarmState → Prop where
  | settle {result : EvaluationResult} {journal : PersistentAlarmState}
      (done : settleTransition snapshot.occurrenceState observation
        (!observation.bootId.isEmpty) = (result, journal))
      (persists : result.persistBeforeEffects = true) :
      Plans snapshot observation .settle result.edges journal
  | active {result : EvaluationResult} {journal : PersistentAlarmState}
      (done : activeTransition snapshot.occurrenceState observation.wallUtcSeconds
        observation.monotonicSeconds observation.bootId = (result, journal))
      (persists : result.persistBeforeEffects = true) :
      Plans snapshot observation .active result.edges journal
  | due {alarm : StoredAlarmDefinition} {result : EvaluationResult}
      {journal : PersistentAlarmState} (mem : alarm ∈ snapshot.alarms)
      (done : evaluateDue alarm.definition snapshot.occurrenceState observation.wallUtcSeconds
        observation.monotonicSeconds true = (result, journal))
      (persists : result.persistBeforeEffects = true) :
      Plans snapshot observation .due result.edges journal
  | reconcile {newest : StoredAlarmDefinition} {lateness : Int64}
      {journal : PersistentAlarmState} (idle : snapshot.occurrenceState.active = none)
      (last : (crossedCandidates snapshot observation.wallUtcSeconds).getLast? = some newest)
      (elapsed : checkedElapsed observation.wallUtcSeconds newest.scheduledUtcSeconds =
        some lateness)
      (accepted : reconcileJournal snapshot.occurrenceState
        (crossedCandidates snapshot observation.wallUtcSeconds).dropLast newest
        (lateness ≤ kLateGraceSeconds) observation.wallUtcSeconds observation.monotonicSeconds =
          some journal) :
      Plans snapshot observation .reconcile
        (alertEdges (makeOccurrenceId newest.definition) (lateness ≤ kLateGraceSeconds) false)
        journal
  | control {stage : CommitStage} {result : EvaluationResult} {journal : PersistentAlarmState}
      (user : stage.isControl = true)
      (done : ControlTransition snapshot.occurrenceState (result, journal))
      (persists : result.persistBeforeEffects = true) :
      Plans snapshot observation stage result.edges journal

section

variable {snapshot : ScheduleSnapshot} {observation : RuntimeTickObservation}
  {stage : CommitStage} {edges : List AlertEdge} {journal : PersistentAlarmState}

theorem TickTransition.step {alarms : List StoredAlarmDefinition} {state : PersistentAlarmState}
    {done : EvaluationResult × PersistentAlarmState}
    (h : TickTransition alarms observation state done)
    (persists : done.1.persistBeforeEffects = true) :
    TickStep alarms observation state done.1.edges done.2 := by
  rcases h with ⟨idle, -⟩ | ⟨-, step⟩
  · rw [persists] at idle
    cases idle
  · exact step

/-- A committed journal is one step of a tick, a reconciliation batch, or one
control step. -/
theorem Plans.cases (h : Plans snapshot observation stage edges journal)
    (distinct : (snapshot.alarms.map (·.id)).Nodup) :
    TickStep snapshot.alarms observation snapshot.occurrenceState edges journal ∨
      (stage = .reconcile ∧ snapshot.occurrenceState.active = none ∧
        TickSteps snapshot.alarms (observation.booted false) snapshot.occurrenceState edges
          journal) ∨
      (stage.isControl = true ∧ ControlStep snapshot.occurrenceState edges journal) := by
  cases h with
  | settle done persists =>
      left
      have boot : (!observation.bootId.isEmpty) = true → observation.bootId ≠ [] := by simp
      have step := settleTransition_transition snapshot.alarms snapshot.occurrenceState boot
      rw [done] at step
      rcases step with ⟨idle, -⟩ | ⟨-, step⟩
      · rw [persists] at idle
        cases idle
      · exact step
  | active done persists =>
      left
      have step :=
        activeTransition_transition snapshot.alarms snapshot.occurrenceState observation
      rw [done] at step
      exact step.step persists
  | due mem done persists =>
      left
      have step := evaluateDue_transition mem snapshot.occurrenceState observation
      rw [done] at step
      exact step.step persists
  | reconcile idle last elapsed accepted =>
      right; left
      exact ⟨rfl, idle, @reconcileJournal_steps _ (observation.booted false) _ _ _ distinct idle
        last elapsed accepted⟩
  | control user done persists =>
      right; right
      rcases done with ⟨idle, -⟩ | ⟨-, step⟩
      · rw [persists] at idle
        cases idle
      · exact ⟨user, step⟩

theorem ValidSchedule.validIds (h : ValidSchedule snapshot) : ValidIds snapshot.alarms := by
  intro alarm mem
  have valid := h.alarms alarm mem
  simp only [validAlarm, Bool.and_eq_true] at valid
  exact valid.1.1

/-- Every committed journal keeps the invariant and advances the ledger. -/
theorem Plans.sound (h : Plans snapshot observation stage edges journal)
    (schedule : ValidSchedule snapshot)
    (boot : validOptionalString observation.bootId kMaximumBootIdBytes = true ∨
      ValidJournal journal)
    (inv : JournalInv snapshot.occurrenceState) :
    JournalInv journal ∧ Advances snapshot.alarms snapshot.occurrenceState journal := by
  rcases h.cases schedule.ids with step | ⟨-, -, steps⟩ | ⟨-, step⟩
  · exact step.sound schedule.validIds boot inv
  · exact steps.sound schedule.validIds rfl inv
  · exact step.sound inv

/-! ### No commit is a no-op -/

/-- A missed occurrence lies at or below its alarm's watermark. -/
theorem atOrBelowWatermark_missOccurrence (state : PersistentAlarmState)
    (alarm : StoredAlarmDefinition) (reason : TerminalReason) :
    atOrBelowWatermark (missOccurrence state alarm reason) alarm.id alarm.scheduledUtcSeconds =
      true := by
  obtain ⟨w, found, bound⟩ := find_raiseHighWatermark_self alarm.id alarm.scheduledUtcSeconds
    state.terminalHighWatermarks
  have table : findHighWatermark (missOccurrence state alarm reason) alarm.id = some w := by
    rw [findHighWatermark, missOccurrence, appendTerminal_watermarks]
    exact found
  rw [atOrBelowWatermark, table, Option.any_some]
  exact decide_eq_true bound

theorem missOccurrence_ne {state other : PersistentAlarmState} {alarm : StoredAlarmDefinition}
    (fresh : Unjournaled other alarm) (reason : TerminalReason) :
    missOccurrence state alarm reason ≠ other := by
  rintro rfl
  have below := fresh.2
  rw [atOrBelowWatermark_missOccurrence] at below
  cases below

theorem active_ne {state other : PersistentAlarmState} (h : state.active ≠ other.active) :
    state ≠ other := fun same => h (congrArg PersistentAlarmState.active same)

theorem TickStep.changed {alarms : List StoredAlarmDefinition} {state : PersistentAlarmState}
    (step : TickStep alarms observation state edges journal) : journal ≠ state := by
  cases step with
  | admitted eligible => exact active_ne (by simp [eligible.idle])
  | missed reason eligible => exact missOccurrence_ne eligible.unjournaled reason
  | timedOut held => exact active_ne (by simp [closeActive, held])
  | rerung held lives snoozed =>
      refine active_ne fun same => ?_
      have same := congrArg ActiveOccurrence.snoozeDeadlineMonotonicSeconds
        (Option.some.inj (same.trans held))
      rw [snoozed] at same
      cases same
  | recovered held boot fresh =>
      refine active_ne fun same => ?_
      exact fresh (congrArg ActiveOccurrence.lastRecoveryBootId
        (Option.some.inj (same.trans held))).symm
  | expired held => exact active_ne (by simp [closeActive, held])

theorem ControlStep.changed {state : PersistentAlarmState}
    (step : ControlStep state edges journal) : journal ≠ state := by
  cases step with
  | snoozed held ringing =>
      refine active_ne fun same => ?_
      have same := congrArg ActiveOccurrence.snoozeDeadlineMonotonicSeconds
        (Option.some.inj (same.trans held))
      rw [ringing] at same
      cases same
  | dismissed reason held => exact active_ne (by simp [closeActive, held])

/-- A batch journals its newest occurrence. -/
theorem reconcileJournal_changed {state : PersistentAlarmState}
    {older : List StoredAlarmDefinition} {newest : StoredAlarmDefinition} {newestRings : Bool}
    {wallUtcSeconds monotonicSeconds : Int64} (idle : state.active = none)
    (fresh : Unjournaled state newest)
    (h : reconcileJournal state older newest newestRings wallUtcSeconds monotonicSeconds =
      some journal) : journal ≠ state := by
  simp only [reconcileJournal, Option.bind_eq_bind, Option.bind_eq_some_iff] at h
  obtain ⟨middle, -, closing⟩ := h
  cases newestRings with
  | true =>
      simp only [if_true, Option.bind_eq_some_iff] at closing
      obtain ⟨_, -, ring⟩ := closing
      simp only [beginRecoveredRing] at ring
      split at ring
      · cases ring
      split at ring
      · cases ring
      · cases ring
        exact active_ne (by simp [idle])
  | false =>
      simp only [Bool.false_eq_true, if_false] at closing
      obtain ⟨-, rfl⟩ := journalMissed_eq_some closing
      exact missOccurrence_ne fresh _

theorem Plans.changed (h : Plans snapshot observation stage edges journal)
    (distinct : (snapshot.alarms.map (·.id)).Nodup) : journal ≠ snapshot.occurrenceState := by
  have byCases := h.cases distinct
  cases h with
  | reconcile idle last elapsed accepted =>
      refine reconcileJournal_changed idle ?_ accepted
      have mem := mem_sortAlarms.mp (List.mem_of_getLast? last)
      have crossed := (List.mem_filter.mp mem).2
      simp only [crossedNow, Bool.and_eq_true, Bool.not_eq_true'] at crossed
      exact ⟨crossed.1.2, crossed.2⟩
  | control user =>
      rcases byCases with step | ⟨rfl, -⟩ | ⟨-, step⟩
      · exact step.changed
      · cases user
      · exact step.changed
  | _ =>
      rcases byCases with step | ⟨other, -⟩ | ⟨other, -⟩
      · exact step.changed
      · cases other
      · cases other

end

end DawnDock
