import DawnDock.Clients.LifecyclePaths
import DawnDock.Clients.Alone

/-!
A client alone whose calls all succeed.

`Confirms` is how a call is answered that reports no failure: a load returns the
record, and a commit leaves its journal. A stage of a tick then either finds the time
unusable or leaves the journal it computed (`ensures_settleEvaluation_confirmed`,
`ensures_settleLoaded_confirmed`). What the due pass and the reconciliation leave is
only bounded: `Admitting` is an invariant of both.
-/

namespace DawnDock

open AtomicProgram

/-- The reply reports success. -/
def ReportsSuccess : (c : StoreCall) → StoreReply c → Prop
  | .load, loaded => loaded.status = .loaded
  | .migrateToCurrentSchema, result => result.status.committed = true
  | .save .., result => result.status.committed = true
  | .saveOccurrenceState .., result => result.status.committed = true

instance (c : StoreCall) (reply : StoreReply c) : Decidable (ReportsSuccess c reply) := by
  cases c with
  | load => exact inferInstanceAs (Decidable (_ = _))
  | migrateToCurrentSchema => exact inferInstanceAs (Decidable (_ = _))
  | save => exact inferInstanceAs (Decidable (_ = _))
  | saveOccurrenceState => exact inferInstanceAs (Decidable (_ = _))

/-- The store operation succeeded. -/
def Succeeded (e : StoreEvent) : Prop := ReportsSuccess e.call e.reply

instance (e : StoreEvent) : Decidable (Succeeded e) :=
  inferInstanceAs (Decidable (ReportsSuccess _ _))

/-- What a call of a sole client is answered if it succeeds. -/
structure Confirms (current : Register) (c : StoreCall) (done : StoreReply c × Register) :
    Prop where
  answer : Answers (fun _ => True) current c done
  success : ReportsSuccess c done.1

/-- What a client ensures if its calls succeed, it ensures on the store whenever they do. -/
theorem exec_ensures_confirmed {α : Type} {post : α → StoreLog → Register → Prop}
    {p : Program StoreReply α} {faults : ℕ → StorageFaults} {s : ℕ × Slots}
    (h : Ensures Confirms post p [] (durable s))
    (succeeded : ∀ e ∈ (events (faultyStore faults) p s).map (Event.mapState durable),
      Succeeded e) :
    post (exec (faultyStore faults) p s).1
      ((events (faultyStore faults) p s).map (Event.mapState durable))
      (durable (exec (faultyStore faults) p s).2) := by
  refine h.exec_of_events durable ?_
  intro e mem
  have success := succeeded _ (List.mem_map_of_mem mem)
  have step := event_step (faultyStore faults) p s e mem
  refine ⟨⟨⟨faults e.before.1, trivial, ?_⟩, (faultyStore_serves faults).valid e.before⟩, success⟩
  have answer := performStore_simulates (faults e.before.1) e.before.2 e.call
  rw [step]
  exact answer

section

variable {current : Register} {log : StoreLog}

theorem ensures_load_confirmed :
    Ensures Confirms (fun loaded log' after => loaded = current ∧ after = current ∧
      current.status = .loaded ∧ validateSnapshot current.snapshot = true ∧
      log' = log ++ [⟨current, .load, loaded, after⟩]) AtomicScheduleStore.load log current := by
  intro loaded after confirmed
  obtain ⟨rfl, returns⟩ := confirmed.answer.load
  obtain rfl := returns confirmed.success
  exact ⟨rfl, rfl, confirmed.success, confirmed.answer.valid confirmed.success, rfl⟩

/-- The record holds the journal, written by the last call of the log or there before. -/
structure Leaves (current : Register) (log : StoreLog) (journal : PersistentAlarmState)
    (log' : StoreLog) (after : Register) : Prop where
  loaded : after.status = .loaded
  journaled : after.journal = journal
  alarms : after.snapshot.alarms = current.snapshot.alarms
  written : journal = current.journal ∨
    ∃ e, log' = log ++ [e] ∧ e.before = current ∧ e.after = after

theorem leaves_refl (loaded : current.status = .loaded) :
    Leaves current log current.journal log current :=
  ⟨loaded, rfl, rfl, .inl rfl⟩

theorem ensures_saveOccurrenceState_confirmed {journal : PersistentAlarmState}
    {revision generation : UInt64} :
    Ensures Confirms (fun committed log' after => committed.status.committed = true ∧
        Leaves current log journal log' after)
      (AtomicScheduleStore.saveOccurrenceState journal revision generation) log current := by
  intro committed after confirmed
  obtain ⟨loaded, journaled, alarms⟩ := confirmed.answer.commitOutcome.confirmed confirmed.success
  exact ⟨confirmed.success, loaded, journaled, alarms, .inr ⟨_, rfl, rfl, rfl⟩⟩

/-- The journal behind a transition that is committed where it has to be. -/
def settledJournal (journal : PersistentAlarmState)
    (done : EvaluationResult × PersistentAlarmState) : PersistentAlarmState :=
  if done.1.persistBeforeEffects then done.2 else journal

/-- A stage finds the time unusable, or leaves the journal of its transition. -/
def StageConfirmed (current : Register) (log : StoreLog)
    (done : EvaluationResult × PersistentAlarmState) {ε α : Type} :
    Except ε α → StoreLog → Register → Prop
  | .error _, log', after => done.1.status = .invalidTime ∧ log' = log ∧ after = current
  | .ok _, log', after => done.1.status ≠ .invalidTime ∧
      Leaves current log (settledJournal current.journal done) log' after

theorem ensures_commitOccurrenceTransition_confirmed
    {done : EvaluationResult × PersistentAlarmState} {evaluation : CommittedScheduleEvaluation}
    {alarm : CommittedAlarmEvaluation} (loaded : current.status = .loaded)
    (result : alarm.result = done.1) :
    Ensures Confirms (fun out log' after => (∃ entry, out = .ok entry) ∧
        Leaves current log (settledJournal current.journal done) log' after)
      (commitOccurrenceTransition done.2 evaluation alarm) log current := by
  unfold commitOccurrenceTransition
  rw [result]
  cases persists : done.1.persistBeforeEffects with
  | false =>
      rw [if_pos (by simp)]
      refine ⟨⟨_, rfl⟩, ?_⟩
      rw [settledJournal, if_neg (by simp [persists])]
      exact leaves_refl loaded
  | true =>
      rw [if_neg (by simp)]
      refine ensures_saveOccurrenceState_confirmed.bind ?_
      rintro committed log' after ⟨success, leaves⟩
      simp only [success, Bool.not_true, Bool.false_eq_true, if_false]
      rw [settledJournal, if_pos persists]
      split
      · exact ⟨⟨_, rfl⟩, leaves⟩
      · exact ⟨⟨_, rfl⟩, leaves⟩

/-- A stage of the evaluator. -/
theorem ensures_settleEvaluation_confirmed {done : EvaluationResult × PersistentAlarmState}
    {evaluation : CommittedScheduleEvaluation} {alarm : CommittedAlarmEvaluation}
    (loaded : current.status = .loaded) (result : alarm.result = done.1) :
    Ensures Confirms (StageConfirmed current log done) (settleEvaluation done.2 evaluation alarm)
      log current := by
  unfold settleEvaluation
  rw [result]
  split
  · rename_i unusable
    exact ⟨unusable, rfl, rfl⟩
  rename_i usable
  refine (ensures_commitOccurrenceTransition_confirmed loaded result).bind ?_
  rintro out log' after ⟨⟨entry, rfl⟩, leaves⟩
  exact ⟨usable, leaves⟩

/-- Settling the active occurrence of a loaded record. -/
theorem ensures_settleActiveOccurrence_confirmed {observation : RuntimeTickObservation}
    {bootPending : Bool} {result : RuntimeTickResult} {active : ActiveOccurrence}
    (loaded : current.status = .loaded)
    (held : current.snapshot.occurrenceState.active = some active) :
    Ensures Confirms (StageConfirmed current log
        (settleTransition current.snapshot.occurrenceState observation bootPending))
      (settleActiveOccurrence current observation bootPending result) log current := by
  unfold settleActiveOccurrence
  rw [held]
  dsimp only
  split
  · rename_i unusable
    exact ⟨unusable, rfl, rfl⟩
  rename_i usable
  cases persists : (settleTransition current.snapshot.occurrenceState observation
    bootPending).1.persistBeforeEffects with
  | false =>
      rw [if_neg (by simp)]
      refine ⟨usable, ?_⟩
      rw [settledJournal, if_neg (by simp [persists])]
      exact leaves_refl loaded
  | true =>
      rw [if_pos rfl]
      refine ensures_saveOccurrenceState_confirmed.bind ?_
      rintro committed log' after ⟨success, leaves⟩
      simp only [success, Bool.not_true, Bool.false_eq_true, if_false]
      refine ⟨usable, ?_⟩
      rw [settledJournal, if_pos persists]
      exact leaves

/-- A property of the journal that the due pass and the reconciliation keep. -/
structure Admitting (P : PersistentAlarmState → Prop) (alarms : List StoredAlarmDefinition)
    (observation : RuntimeTickObservation) : Prop where
  due : ∀ alarm ∈ alarms, ∀ state, P state →
    P (evaluateDue alarm.definition state observation.wallUtcSeconds
      observation.monotonicSeconds true).2
  batch : ∀ {snapshot : ScheduleSnapshot} {newest : StoredAlarmDefinition} {lateness : Int64}
    {journal : PersistentAlarmState}, snapshot.alarms = alarms →
    (snapshot.alarms.map (·.id)).Nodup →
    Batch snapshot observation.wallUtcSeconds observation.monotonicSeconds newest lateness
      journal → P snapshot.occurrenceState → P journal

variable {P : PersistentAlarmState → Prop} {alarms : List StoredAlarmDefinition}
  {observation : RuntimeTickObservation} {state : RuntimeCoordinatorState}

theorem TickSteps.keeps {journal final : PersistentAlarmState} {edges : List AlertEdge}
    (steps : TickSteps alarms observation journal edges final)
    (step : ∀ {state final : PersistentAlarmState} {edges : List AlertEdge},
      TickStep alarms observation state edges final → P state → P final)
    (holds : P journal) : P final := by
  induction steps with
  | nil => exact holds
  | cons first rest ih => exact ih (step first holds)

/-- What every step of a tick keeps. -/
theorem admitting_of_step {booted : RuntimeTickObservation}
    (same : booted = observation.booted false)
    (step : ∀ {state final : PersistentAlarmState} {edges : List AlertEdge},
      TickStep alarms booted state edges final → P state → P final) :
    Admitting P alarms observation where
  due alarm mem state holds := by
    subst same
    rcases @evaluateDue_transition alarms alarm mem state (observation.booted false) with
      ⟨-, -, kept⟩ | ⟨-, moved⟩
    · exact kept.symm ▸ holds
    · exact step moved holds
  batch whole distinct accepted holds := by
    subst same whole
    have steps : TickSteps _ (observation.booted false) _ _ _ :=
      reconcileJournal_steps distinct accepted.idle accepted.last accepted.elapsed
        accepted.accepted
    exact steps.keeps step holds

theorem ensures_evaluateAlarms_confirmed {evaluation : CommittedScheduleEvaluation}
    {journal : PersistentAlarmState} {wallUtcSeconds monotonicSeconds : Int64}
    (keeps : ∀ alarm ∈ alarms, ∀ state, P state →
      P (evaluateDue alarm.definition state wallUtcSeconds monotonicSeconds true).2)
    (loaded : current.status = .loaded) (holds : P journal) (stored : P current.journal) :
    Ensures Confirms (fun _ _ after => P after.journal)
      (evaluateAlarms wallUtcSeconds monotonicSeconds alarms journal evaluation) log current := by
  induction alarms generalizing journal evaluation log current with
  | nil => exact stored
  | cons alarm rest ih =>
      have next := keeps alarm List.mem_cons_self journal holds
      simp only [evaluateAlarms]
      refine (ensures_settleEvaluation_confirmed loaded rfl).bind ?_
      rintro (ended | evaluation) log' after stage
      · obtain ⟨-, -, rfl⟩ := stage
        exact stored
      · obtain ⟨-, leaves⟩ := stage
        refine ih (fun other mem => keeps other (List.mem_cons_of_mem _ mem)) leaves.loaded next ?_
        rw [leaves.journaled, settledJournal]
        split
        · exact next
        · exact stored

/-- The reconciliation of a tick. -/
theorem ensures_reconcileAfterTimeValid_confirmed
    (keeps : Admitting P current.snapshot.alarms observation) (stored : P current.journal) :
    Ensures Confirms (fun _ _ after => P after.journal)
      (reconcileAfterTimeValid observation.wallUtcSeconds observation.monotonicSeconds true)
      log current := by
  simp only [reconcileAfterTimeValid, Bool.not_true, Bool.false_eq_true, if_false]
  refine ensures_load_confirmed.bind ?_
  rintro loaded log' record ⟨rfl, rfl, isLoaded, valid, -⟩
  rw [if_neg (not_not.mpr isLoaded)]
  split
  · exact stored
  rename_i idle
  split
  · exact stored
  rename_i newest last
  split
  · exact stored
  rename_i lateness elapsed
  split
  · exact stored
  rename_i journal accepted
  have batch : Batch record.snapshot observation.wallUtcSeconds observation.monotonicSeconds
      newest lateness journal := ⟨by simpa using idle, last, elapsed, accepted⟩
  rw [Register.journal_of_loaded isLoaded] at stored
  have next := keeps.batch rfl (validateSnapshot_iff.mp valid).1.ids batch stored
  refine ensures_saveOccurrenceState_confirmed.bind ?_
  rintro committed log'' after ⟨success, leaves⟩
  simp only [success, Bool.not_true, Bool.false_eq_true, if_false]
  show P after.journal
  exact leaves.journaled ▸ next

/-! ### The tick -/

/-- The log has the call that replaced one journal by another. -/
def Writes (log : StoreLog) (before after : PersistentAlarmState) : Prop :=
  ∃ e ∈ log, e.before.journal = before ∧ e.after.journal = after

theorem Leaves.writes {done : EvaluationResult × PersistentAlarmState} {log' : StoreLog}
    {after : Register}
    (leaves : Leaves current log (settledJournal current.journal done) log' after)
    (changed : done.1.persistBeforeEffects = true → done.2 ≠ current.journal) :
    done.1.persistBeforeEffects = true → Writes log' current.journal done.2 := by
  intro persists
  obtain ⟨-, journaled, -, written⟩ := leaves
  rw [settledJournal, if_pos persists] at journaled written
  obtain ⟨e, rfl, before, ends⟩ := written.resolve_left (changed persists)
  exact ⟨e, by simp, congrArg Register.journal before, ends ▸ journaled⟩

/-- Settling a loaded record, with or without an active occurrence. -/
theorem ensures_settleLoaded_confirmed {bootPending : Bool} {result : RuntimeTickResult} :
    Ensures Confirms (fun out log' after =>
        current.status = .loaded ∧ validateSnapshot current.snapshot = true ∧
        ∃ log'', StageConfirmed current log'' (settleTransition current.journal observation
          bootPending) out log' after)
      (settleLoaded observation bootPending result) log current := by
  unfold settleLoaded
  refine ensures_load_confirmed.bind ?_
  rintro loaded log' record ⟨rfl, rfl, isLoaded, valid, -⟩
  rw [if_neg (not_not.mpr isLoaded), Register.journal_of_loaded isLoaded]
  cases held : record.snapshot.occurrenceState.active with
  | none =>
      unfold settleActiveOccurrence
      rw [held]
      refine ⟨isLoaded, valid, log', ?_⟩
      have quiet : (settleTransition record.snapshot.occurrenceState observation bootPending).1 =
          {} := by
        cases bootPending with
        | false => simp [settleTransition, advanceActive, held]
        | true => simp [settleTransition, recoverAfterReboot, held]
      refine ⟨by simp [quiet], ?_⟩
      rw [settledJournal, quiet, if_neg (by simp)]
      exact leaves_refl isLoaded
  | some active =>
      refine (ensures_settleActiveOccurrence_confirmed isLoaded held).post ?_
      intro out log'' after stage
      exact ⟨isLoaded, valid, log', stage⟩

theorem Writes.mono {log own : StoreLog} {before after : PersistentAlarmState}
    (writes : Writes log before after) : Writes (log ++ own) before after := by
  obtain ⟨e, mem, ends⟩ := writes
  exact ⟨e, List.mem_append_left own mem, ends⟩

theorem settledJournal_advanceActive (journal : PersistentAlarmState) (monotonicSeconds : Int64) :
    settledJournal journal (advanceActive journal monotonicSeconds) =
      (advanceActive journal monotonicSeconds).2 := by
  cases held : journal.active with
  | none => simp [settledJournal, advanceActive, held]
  | some active =>
      have outcome := advanceActive_outcome held monotonicSeconds
      rw [settledJournal]
      split
      · rfl
      · rename_i keeps
        exact (outcome.kept (by simpa using keeps)).symm

/-- How a tick or an evaluation ends whose transition of the active occurrence is `done`:
it leaves the journal if the time was unusable. Otherwise it has written what had to be
committed, and `P` holds in the end. -/
structure Acts (P : PersistentAlarmState → Prop) (journal : PersistentAlarmState)
    (done : EvaluationResult × PersistentAlarmState) (log : StoreLog) (after : Register) :
    Prop where
  frozen : done.1.status = .invalidTime → after.journal = journal
  holds : done.1.status ≠ .invalidTime → P after.journal
  writes : done.1.status ≠ .invalidTime → done.1.persistBeforeEffects = true →
    Writes log journal done.2

theorem acts_frozen {done : EvaluationResult × PersistentAlarmState} {after : Register}
    (unusable : done.1.status = .invalidTime) : Acts P after.journal done log after where
  frozen _ := rfl
  holds usable := absurd unusable usable
  writes usable := absurd unusable usable

/-- The evaluation of a tick: it advances the active occurrence and admits what is due. -/
theorem ensures_evaluateCommittedSchedule_confirmed
    (keeps : Admitting P current.snapshot.alarms observation)
    (advanced : P (advanceActive current.journal observation.monotonicSeconds).2) :
    Ensures Confirms (fun _ => Acts P current.journal
        (advanceActive current.journal observation.monotonicSeconds))
      (evaluateCommittedSchedule observation.wallUtcSeconds observation.monotonicSeconds true [])
      log current := by
  simp only [evaluateCommittedSchedule, Bool.not_true, Bool.false_eq_true, if_false]
  refine ensures_load_confirmed.bind ?_
  rintro loaded log' record ⟨rfl, rfl, isLoaded, valid, -⟩
  rw [if_neg (not_not.mpr isLoaded)]
  have due : ∀ alarm ∈ sortAlarms record.snapshot.alarms, ∀ state, P state →
      P (evaluateDue alarm.definition state observation.wallUtcSeconds
        observation.monotonicSeconds true).2 :=
    fun alarm mem => keeps.due alarm (mem_sortAlarms.mp mem)
  have stored : record.journal = record.snapshot.occurrenceState :=
    Register.journal_of_loaded isLoaded
  cases held : record.snapshot.occurrenceState.active with
  | none =>
      have idle : advanceActive record.journal observation.monotonicSeconds =
          ({}, record.journal) := by
        rw [stored, advanceActive, held]
      rw [idle] at advanced ⊢
      refine (ensures_evaluateAlarms_confirmed due isLoaded (stored ▸ advanced) advanced).post ?_
      intro evaluation log'' after holds
      refine ⟨?_, fun _ => holds, ?_⟩
      · intro unusable
        cases unusable
      · intro _ persists
        cases persists
  | some active =>
      rw [← stored]
      refine (ensures_settleEvaluation_confirmed isLoaded rfl).bind ?_
      rintro (ended | evaluation) log'' after stage
      · obtain ⟨unusable, -, rfl⟩ := stage
        exact acts_frozen unusable
      · obtain ⟨usable, leaves⟩ := stage
        have writes := leaves.writes advanceActive_changes
        have journaled := leaves.journaled.trans (settledJournal_advanceActive _ _)
        refine (Ensures.extends (ensures_evaluateAlarms_confirmed due leaves.loaded
          advanced (journaled ▸ advanced))).post ?_
        rintro evaluation whole final ⟨holds, own, rfl⟩
        exact ⟨fun unusable => absurd unusable usable, fun _ => holds,
          fun _ persists => (writes persists).mono⟩

theorem ensures_evaluationTick_confirmed {result : RuntimeTickResult}
    (keeps : Admitting P current.snapshot.alarms observation)
    (advanced : P (advanceActive current.journal observation.monotonicSeconds).2) :
    Ensures Confirms (fun _ => Acts P current.journal
        (advanceActive current.journal observation.monotonicSeconds))
      (evaluationTick observation result) log current :=
  (ensures_evaluateCommittedSchedule_confirmed keeps advanced).bind fun _ _ _ acts => acts

theorem settleTransition_changes {journal : PersistentAlarmState} {bootPending : Bool}
    (boot : bootPending = true → observation.bootId ≠ [])
    (persists : (settleTransition journal observation bootPending).1.persistBeforeEffects = true) :
    (settleTransition journal observation bootPending).2 ≠ journal := by
  rcases settleTransition_transition [] journal boot with ⟨quiet, -⟩ | ⟨-, step⟩
  · rw [persists] at quiet
    cases quiet
  · exact step.changed

/-- The stage in front of a reconciliation, or of the first evaluation of a boot. -/
theorem ensures_settleStage_confirmed {bootPending : Bool} {result : RuntimeTickResult}
    (boot : bootPending = true → observation.bootId ≠ []) :
    let done := settleTransition current.journal observation bootPending
    Ensures Confirms (fun out log' after => after.snapshot.alarms = current.snapshot.alarms ∧
        match out with
        | .error _ => done.1.status = .invalidTime ∧ after = current
        | .ok _ => done.1.status ≠ .invalidTime ∧
            after.journal = settledJournal current.journal done ∧
            (done.1.persistBeforeEffects = true → Writes log' current.journal done.2))
      (settleLoaded observation bootPending result) log current := by
  intro done
  refine ensures_settleLoaded_confirmed.post ?_
  rintro (ended | settled) log' after ⟨-, -, log'', stage⟩
  · obtain ⟨unusable, -, rfl⟩ := stage
    exact ⟨rfl, unusable, rfl⟩
  · obtain ⟨usable, leaves⟩ := stage
    exact ⟨leaves.alarms, usable, leaves.journaled,
      leaves.writes fun persists => settleTransition_changes boot persists⟩

theorem isBootPending_handleBoot (state : RuntimeCoordinatorState)
    (observation : RuntimeTickObservation) :
    isBootPending (handleBoot state observation (isBootPending state observation)) observation =
      false := by
  cases pending : isBootPending state observation with
  | false => exact pending
  | true => simp [handleBoot, isBootPending]

/-- A valid tick: it settles the active occurrence, and admits what is due behind it. -/
theorem ensures_runRuntimeTick_confirmed (timeValid : observation.timeValid = true)
    (keeps : Admitting P current.snapshot.alarms observation)
    (settled : P (settledJournal current.journal
      (settleTransition current.journal observation (isBootPending state observation))))
    (advanced : isBootPending state observation = true →
      P (advanceActive (settledJournal current.journal
        (settleTransition current.journal observation true)) observation.monotonicSeconds).2) :
    let done := settleTransition current.journal observation (isBootPending state observation)
    Ensures Confirms (fun out log' after => Acts P current.journal done log' after ∧
        (done.1.status ≠ .invalidTime → isBootPending out.2 observation = false))
      (runRuntimeTick state observation) log current := by
  intro done
  have boot : isBootPending state observation = true → observation.bootId ≠ [] := by
    simp only [isBootPending, Bool.and_eq_true, Bool.not_eq_true', List.isEmpty_eq_false_iff]
    exact And.left
  have handled := isBootPending_handleBoot state observation
  simp only [runRuntimeTick, timeValid, Bool.not_true, Bool.false_eq_true, if_false]
  split
  · -- The reconciliation is owed.
    refine (ensures_settleStage_confirmed boot).bind ?_
    rintro (ended | result) log' after ⟨alarms, stage⟩
    · obtain ⟨unusable, rfl⟩ := stage
      exact ⟨acts_frozen unusable, fun usable => absurd unusable usable⟩
    · obtain ⟨usable, journaled, writes⟩ := stage
      refine (Ensures.extends (ensures_reconcileAfterTimeValid_confirmed (alarms ▸ keeps)
        (journaled ▸ settled))).bind ?_
      rintro recovery whole final ⟨holds, own, rfl⟩
      refine ⟨⟨fun unusable => absurd unusable usable, fun _ => holds,
        fun _ persists => (writes persists).mono⟩, fun _ => ?_⟩
      dsimp only
      split
      · exact handled
      · exact handled
  split
  · -- The boot is still to be handled.
    rename_i pending
    have started : done = settleTransition current.journal observation true := by
      rw [← pending]
    rw [pending] at settled handled
    rw [started]
    refine (ensures_settleStage_confirmed fun _ => boot pending).bind ?_
    rintro (ended | result) log' after ⟨alarms, stage⟩
    · obtain ⟨unusable, rfl⟩ := stage
      exact ⟨acts_frozen unusable, fun usable => absurd unusable usable⟩
    · obtain ⟨usable, journaled, writes⟩ := stage
      refine (Ensures.extends (ensures_evaluationTick_confirmed (alarms ▸ keeps)
        (journaled ▸ advanced pending))).bind ?_
      rintro ticked whole final ⟨acts, own, rfl⟩
      refine ⟨⟨fun unusable => absurd unusable usable, fun _ => ?_,
        fun _ persists => (writes persists).mono⟩, fun _ => handled⟩
      by_cases unusable : (advanceActive after.journal observation.monotonicSeconds).1.status =
        .invalidTime
      · rw [acts.frozen unusable, journaled]
        exact settled
      · exact acts.holds unusable
  · -- The boot is handled: the evaluation itself advances the occurrence.
    rename_i pending
    have handled : isBootPending state observation = false := by simpa using pending
    have started : done = advanceActive current.journal observation.monotonicSeconds := by
      change settleTransition _ _ _ = _
      rw [handled]
      rfl
    rw [show settleTransition _ _ _ = _ from started, settledJournal_advanceActive] at settled
    rw [started]
    refine (ensures_evaluationTick_confirmed keeps settled).bind ?_
    intro ticked log' after acts
    exact ⟨acts, fun _ => handled⟩

/-- A call of the engine on the stored journal. -/
theorem ensures_commitEngineCall_confirmed {call : EngineCall} :
    Ensures Confirms (fun _ _ after => current.status = .loaded ∧
        after.journal = settledJournal current.journal (call.apply current.snapshot))
      (commitEngineCall call) log current := by
  unfold commitEngineCall
  refine ensures_load_confirmed.bind ?_
  rintro loaded log' record ⟨rfl, rfl, isLoaded, valid, -⟩
  rw [if_neg (not_not.mpr isLoaded)]
  refine (ensures_commitOccurrenceTransition_confirmed isLoaded rfl).bind ?_
  rintro out log'' after ⟨⟨entry, rfl⟩, leaves⟩
  exact ⟨isLoaded, leaves.journaled⟩

end

end DawnDock
