import DawnDock.Clients.Commit
import DawnDock.Clients.Rely
import DawnDock.Journal.Due
import DawnDock.Journal.Sound

/-!
The evaluator over healthy storage.

A client alone with a store that does not fail knows the answer to each of its
calls: a load returns the record, and a journal commit succeeds exactly if the
validator accepts the journal and a generation is left (`healthy_commit`).
`HealthyStage` and `HealthyPass` are the evaluator in these terms, one stage and one
alarm at a time; `exec_settleEvaluation` and `exec_evaluateAlarms` prove them of the
code.
-/

namespace DawnDock

open AtomicProgram

/-! ### Calls -/

/-- The store without faults, as loads see it. -/
abbrev healthyRegister : Object StoreReply Register := performRegister {}

theorem exec_healthy {α : Type} (p : Program StoreReply α) (slots : Slots) :
    (exec (performStore {}) p slots).1 = (exec healthyRegister p (scanSlots slots)).1 ∧
      scanSlots (exec (performStore {}) p slots).2 =
        (exec healthyRegister p (scanSlots slots)).2 := by
  have sim := (performStore_simulates {}).exec p slots
  exact ⟨(congrArg Prod.fst sim).symm, (congrArg Prod.snd sim).symm⟩

/-- A record that a load returns. -/
structure ValidRecord (current : Register) : Prop where
  loaded : current.status = .loaded
  schedule : ValidSchedule current.snapshot
  journal : ValidJournal current.snapshot.occurrenceState

theorem validRecord_scanSlots {slots : Slots} (loaded : (scanSlots slots).status = .loaded) :
    ValidRecord (scanSlots slots) := by
  obtain ⟨schedule, journal⟩ := validateSnapshot_iff.mp (validateSnapshot_scanSlots loaded).1
  exact ⟨loaded, schedule, journal⟩

/-- The store a first save leaves. -/
def firstStore (snapshot : ScheduleSnapshot) : Slots := (performStore {} {} (.save snapshot 0)).2

theorem scanSlots_firstStore {snapshot : ScheduleSnapshot} (first : snapshot.revision = 1)
    (valid : validateSnapshot snapshot = true) :
    scanSlots (firstStore snapshot) = { status := .loaded, snapshot, generation := 1 } := by
  have empty : scanSlots {} = {} := rfl
  have step := congrArg Prod.snd (performStore_simulates {} {} (.save snapshot 0))
  rw [empty] at step
  have planned : savePlan {} snapshot 0 = .commit snapshot .a := by
    simp [savePlan, unreadableAnswer, currentRevision, committedSnapshot, first, valid]
  have committed : (performRegister {} {} (.save snapshot 0)).2 =
      { status := .loaded, snapshot, generation := 1 } := by
    change (writeRegister {} {} (savePlan {} snapshot 0)).2 = _
    rw [planned]
    rfl
  rw [firstStore, ← committed]
  exact step.symm

section

variable {current : Register} {journal : PersistentAlarmState}

theorem ValidRecord.journal_eq (valid : ValidRecord current) :
    current.journal = current.snapshot.occurrenceState := if_pos valid.loaded

theorem ValidRecord.withJournal (valid : ValidRecord current) (next : ValidJournal journal) :
    ValidRecord (current.withJournal journal) :=
  ⟨rfl, valid.schedule.withJournal journal, next⟩

theorem withJournal_journal (current : Register) (journal : PersistentAlarmState) :
    (current.withJournal journal).journal = journal := rfl

theorem ValidRecord.valid_with (valid : ValidRecord current) :
    validateSnapshot { current.snapshot with occurrenceState := journal } = true ↔
      ValidJournal journal := by
  rw [validateSnapshot_iff]
  exact and_iff_right (valid.schedule.withJournal journal)

/-- The store has room for the journal: it is valid, and a generation is left. -/
def Writable (current : Register) (journal : PersistentAlarmState) : Prop :=
  validateSnapshot { current.snapshot with occurrenceState := journal } = true ∧
    current.generation ≠ uint64Max

instance (current : Register) (journal : PersistentAlarmState) :
    Decidable (Writable current journal) := inferInstanceAs (Decidable (_ ∧ _))

theorem ValidRecord.writable (valid : ValidRecord current) :
    Writable current journal ↔ ValidJournal journal ∧ current.generation ≠ uint64Max :=
  and_congr_left' valid.valid_with

/-- Healthy storage takes every journal that changes the record and has room. -/
theorem healthy_commit (valid : ValidRecord current)
    (changes : journal ≠ current.snapshot.occurrenceState) :
    healthyRegister current
        (.saveOccurrenceState journal current.snapshot.revision current.generation) =
      if Writable current journal then
        (⟨.stored, current.generation + 1, opposite current.source⟩, current.withJournal journal)
      else (⟨.invalidSnapshot, current.generation, current.source⟩, current) := by
  have other : ¬ { current.snapshot with occurrenceState := journal } = current.snapshot :=
    fun same => changes (congrArg ScheduleSnapshot.occurrenceState same)
  change writeRegister {} current _ = _
  simp only [writeRegister, saveOccurrenceStatePlan, valid.loaded, unreadableAnswer]
  by_cases accepted : validateSnapshot { current.snapshot with occurrenceState := journal } = true
  · by_cases last : current.generation = uint64Max
    · simp [Writable, accepted, last, other, WritePlan.runOn]
    · simp [Writable, accepted, last, other, WritePlan.runOn, Register.commit,
        StorageFaults.confirms, Register.withJournal, Register.write]
  · simp [Writable, accepted, WritePlan.runOn]

theorem exec_commit {α : Type} (valid : ValidRecord current)
    (changes : journal ≠ current.snapshot.occurrenceState)
    (next : StoreResult → Program StoreReply α) :
    exec healthyRegister (AtomicScheduleStore.saveOccurrenceState journal
        current.snapshot.revision current.generation >>= next) current =
      if Writable current journal then
        exec healthyRegister (next ⟨.stored, current.generation + 1, opposite current.source⟩)
          (current.withJournal journal)
      else exec healthyRegister (next ⟨.invalidSnapshot, current.generation, current.source⟩)
        current := by
  have commit := healthy_commit valid changes
  change exec healthyRegister (next (healthyRegister current (.saveOccurrenceState journal
    current.snapshot.revision current.generation)).1) _ = _
  rw [commit]
  split <;> rfl

theorem exec_load {α : Type} (next : LoadResult → Program StoreReply α) :
    exec healthyRegister (AtomicScheduleStore.load >>= next) current =
      exec healthyRegister (next current) current := rfl

end

/-! ### A stage -/

section

variable {current : Register} {evaluation : CommittedScheduleEvaluation}
  {alarm : CommittedAlarmEvaluation} {journal : PersistentAlarmState}

/-- The evaluation works on the record. -/
structure InStep (current : Register) (evaluation : CommittedScheduleEvaluation) : Prop where
  revision : evaluation.scheduleRevision = current.snapshot.revision
  generation : evaluation.generation = current.generation

/-- What is recorded of a committed transition. -/
def CommittedAlarmEvaluation.durable (alarm : CommittedAlarmEvaluation) :
    CommittedAlarmEvaluation :=
  { alarm with
    journalCommitted := true, result := { alarm.result with persistBeforeEffects := false } }

/-- What is recorded of a transition whose commit failed. -/
def CommittedAlarmEvaluation.silent (alarm : CommittedAlarmEvaluation) :
    CommittedAlarmEvaluation :=
  { alarm with result := { alarm.result with startAlert := false, stopAlert := false } }

/-- How the stage of one transition ends over healthy storage. -/
inductive HealthyStage (current : Register) (evaluation : CommittedScheduleEvaluation)
    (alarm : CommittedAlarmEvaluation) (journal : PersistentAlarmState) :
    Except CommittedScheduleEvaluation CommittedScheduleEvaluation × Register → Prop where
  | unusable (status : alarm.result.status = .invalidTime) :
      HealthyStage current evaluation alarm journal
        (.error { evaluation.push alarm with status := .invalidTime }, current)
  | quiet (usable : alarm.result.status ≠ .invalidTime)
      (keeps : alarm.result.persistBeforeEffects = false) :
      HealthyStage current evaluation alarm journal (.ok (evaluation.push alarm), current)
  | refused (usable : alarm.result.status ≠ .invalidTime)
      (persists : alarm.result.persistBeforeEffects = true)
      (refusal : ¬ Writable current journal) :
      HealthyStage current evaluation alarm journal
        (.error { evaluation.push alarm.silent with status := .persistenceError }, current)
  | stored (usable : alarm.result.status ≠ .invalidTime)
      (persists : alarm.result.persistBeforeEffects = true)
      (accepted : Writable current journal) :
      HealthyStage current evaluation alarm journal
        (.ok (CommittedScheduleEvaluation.push
          { evaluation with generation := current.generation + 1 } alarm.durable),
          current.withJournal journal)

theorem exec_commitOccurrenceTransition (valid : ValidRecord current)
    (inStep : InStep current evaluation) (persists : alarm.result.persistBeforeEffects = true)
    (changes : journal ≠ current.snapshot.occurrenceState) :
    exec healthyRegister (commitOccurrenceTransition journal evaluation alarm) current =
      if Writable current journal then
        (.ok ({ evaluation with generation := current.generation + 1 }, alarm.durable),
          current.withJournal journal)
      else
        (.error { evaluation.push alarm.silent with status := .persistenceError }, current) := by
  obtain ⟨status, revision, generation, alarms⟩ := evaluation
  obtain ⟨rfl, rfl⟩ := inStep
  simp only [commitOccurrenceTransition, persists, Bool.not_true, Bool.false_eq_true, if_false]
  rw [exec_commit valid changes]
  simp only [CommittedAlarmEvaluation.silent, persists]
  split <;> rfl

theorem exec_settleEvaluation (valid : ValidRecord current) (inStep : InStep current evaluation)
    (changes : alarm.result.persistBeforeEffects = true →
      journal ≠ current.snapshot.occurrenceState) :
    HealthyStage current evaluation alarm journal
      (exec healthyRegister (settleEvaluation journal evaluation alarm) current) := by
  unfold settleEvaluation
  split
  · rename_i status
    exact .unusable status
  rename_i usable
  rw [exec_bind]
  cases persists : alarm.result.persistBeforeEffects with
  | false =>
      simp only [commitOccurrenceTransition, persists, Bool.not_false, if_true]
      exact .quiet usable persists
  | true =>
      rw [exec_commitOccurrenceTransition valid inStep persists (changes persists)]
      by_cases accepted : Writable current journal
      · rw [if_pos accepted]
        exact .stored usable persists accepted
      · rw [if_neg accepted]
        exact .refused usable persists accepted

theorem InStep.push (inStep : InStep current evaluation) : InStep current (evaluation.push alarm) :=
  ⟨inStep.revision, inStep.generation⟩

theorem InStep.commit (inStep : InStep current evaluation) :
    InStep (current.withJournal journal) { evaluation with generation := current.generation + 1 } :=
  ⟨inStep.revision, rfl⟩

end

/-! ### The due pass -/

section

variable {wallUtcSeconds monotonicSeconds : Int64} {current : Register}
  {evaluation : CommittedScheduleEvaluation} {alarm : StoredAlarmDefinition}
  {alarms : List StoredAlarmDefinition}

/-- The due pass over healthy storage: from a record and an evaluation to the final
ones. -/
inductive HealthyPass (wallUtcSeconds monotonicSeconds : Int64) :
    List StoredAlarmDefinition → Register → CommittedScheduleEvaluation →
      CommittedScheduleEvaluation × Register → Prop where
  | done {current : Register} {evaluation : CommittedScheduleEvaluation} :
      HealthyPass wallUtcSeconds monotonicSeconds [] current evaluation (evaluation, current)
  | unusable {current : Register} {evaluation : CommittedScheduleEvaluation}
      {alarm : StoredAlarmDefinition} {rest : List StoredAlarmDefinition}
      {result : EvaluationResult} {journal : PersistentAlarmState}
      (decided : evaluateDue alarm.definition current.snapshot.occurrenceState wallUtcSeconds
        monotonicSeconds true = (result, journal))
      (status : result.status = .invalidTime) :
      HealthyPass wallUtcSeconds monotonicSeconds (alarm :: rest) current evaluation
        ({ evaluation.push { alarmId := alarm.id, result } with status := .invalidTime }, current)
  | quiet {current : Register} {evaluation : CommittedScheduleEvaluation}
      {alarm : StoredAlarmDefinition} {rest : List StoredAlarmDefinition}
      {result : EvaluationResult} {final : CommittedScheduleEvaluation × Register}
      (decided : evaluateDue alarm.definition current.snapshot.occurrenceState wallUtcSeconds
        monotonicSeconds true = (result, current.snapshot.occurrenceState))
      (usable : result.status ≠ .invalidTime) (keeps : result.persistBeforeEffects = false)
      (later : HealthyPass wallUtcSeconds monotonicSeconds rest current
        (evaluation.push { alarmId := alarm.id, result }) final) :
      HealthyPass wallUtcSeconds monotonicSeconds (alarm :: rest) current evaluation final
  /-- The generations have run out. -/
  | refused {current : Register} {evaluation : CommittedScheduleEvaluation}
      {alarm : StoredAlarmDefinition} {rest : List StoredAlarmDefinition}
      {result : EvaluationResult} {journal : PersistentAlarmState}
      (decided : evaluateDue alarm.definition current.snapshot.occurrenceState wallUtcSeconds
        monotonicSeconds true = (result, journal))
      (usable : result.status ≠ .invalidTime) (persists : result.persistBeforeEffects = true)
      (last : current.generation = uint64Max) :
      HealthyPass wallUtcSeconds monotonicSeconds (alarm :: rest) current evaluation
        ({ evaluation.push (CommittedAlarmEvaluation.silent { alarmId := alarm.id, result }) with
            status := .persistenceError }, current)
  | stored {current : Register} {evaluation : CommittedScheduleEvaluation}
      {alarm : StoredAlarmDefinition} {rest : List StoredAlarmDefinition}
      {result : EvaluationResult} {journal : PersistentAlarmState}
      {final : CommittedScheduleEvaluation × Register}
      (decided : evaluateDue alarm.definition current.snapshot.occurrenceState wallUtcSeconds
        monotonicSeconds true = (result, journal))
      (usable : result.status ≠ .invalidTime) (persists : result.persistBeforeEffects = true)
      (valid : ValidJournal journal) (room : current.generation ≠ uint64Max)
      (later : HealthyPass wallUtcSeconds monotonicSeconds rest (current.withJournal journal)
        (CommittedScheduleEvaluation.push { evaluation with generation := current.generation + 1 }
          (CommittedAlarmEvaluation.durable { alarmId := alarm.id, result })) final) :
      HealthyPass wallUtcSeconds monotonicSeconds (alarm :: rest) current evaluation final

/-- What the due pass journals is valid and new. -/
theorem DueOutcome.valid {state : PersistentAlarmState}
    {done : EvaluationResult × PersistentAlarmState}
    (outcome : DueOutcome wallUtcSeconds monotonicSeconds state alarm done)
    (valid : ValidJournal state) (id : validString alarm.id kMaximumAlarmIdBytes = true)
    (persists : done.1.persistBeforeEffects = true) : ValidJournal done.2 ∧ done.2 ≠ state := by
  cases outcome with
  | quiet keeps | unusable keeps =>
      rw [keeps] at persists
      cases persists
  | missed keeps status name idle crossed room =>
      constructor
      · rw [missOccurrence_eq idle]
        exact valid.terminate id room _
      · exact missOccurrence_ne (crossedNow_iff.mp crossed).2.2 _
  | admitted keeps status name starts idle crossed room =>
      constructor
      · exact valid.admit (crossedNow_iff.mp crossed).2.2 id _ _
      · exact active_ne (by simp [idle])

/-- The due pass of the code. -/
theorem exec_evaluateAlarms (valid : ValidRecord current) (inStep : InStep current evaluation)
    (ids : ValidIds alarms) :
    HealthyPass wallUtcSeconds monotonicSeconds alarms current evaluation
      (exec healthyRegister (evaluateAlarms wallUtcSeconds monotonicSeconds alarms
        current.snapshot.occurrenceState evaluation) current) := by
  induction alarms generalizing current evaluation with
  | nil => exact .done
  | cons alarm rest ih =>
      have outcome := evaluateDue_outcome wallUtcSeconds monotonicSeconds
        current.snapshot.occurrenceState alarm
      have id := ids alarm List.mem_cons_self
      have later : ValidIds rest := fun other mem => ids other (List.mem_cons_of_mem _ mem)
      simp only [evaluateAlarms]
      generalize decided : evaluateDue alarm.definition current.snapshot.occurrenceState
        wallUtcSeconds monotonicSeconds true = due at outcome ⊢
      obtain ⟨result, journal⟩ := due
      have stage := @exec_settleEvaluation current evaluation { alarmId := alarm.id, result }
        journal valid inStep fun persists => (outcome.valid valid.journal id persists).2
      rw [exec_bind]
      generalize exec healthyRegister (settleEvaluation journal evaluation
        { alarmId := alarm.id, result }) current = settled at stage ⊢
      cases stage with
      | unusable status => exact .unusable decided status
      | quiet usable keeps =>
          obtain rfl := outcome.kept keeps
          exact .quiet decided usable keeps (ih valid inStep.push later)
      | refused usable persists refusal =>
          obtain ⟨fine, -⟩ := outcome.valid valid.journal id persists
          refine .refused decided usable persists ?_
          by_contra room
          exact refusal (valid.writable.mpr ⟨fine, room⟩)
      | stored usable persists accepted =>
          obtain ⟨fine, room⟩ := valid.writable.mp accepted
          exact .stored decided usable persists fine room
            (ih (valid.withJournal fine) inStep.commit.push later)

end

/-! ### What a due pass leaves alone -/

section

variable {wallUtcSeconds monotonicSeconds : Int64} {current : Register}
  {evaluation : CommittedScheduleEvaluation} {alarm : StoredAlarmDefinition}
  {alarms : List StoredAlarmDefinition} {final : CommittedScheduleEvaluation × Register}

/-- The outcome of `evaluateDue` on a record. -/
theorem decided_outcome {done : EvaluationResult × PersistentAlarmState}
    (decided : evaluateDue alarm.definition current.snapshot.occurrenceState wallUtcSeconds
      monotonicSeconds true = done) :
    DueOutcome wallUtcSeconds monotonicSeconds current.snapshot.occurrenceState alarm done :=
  decided ▸ evaluateDue_outcome _ _ _ _

/-- A pass over alarms of which none is crossed leaves the record. -/
theorem HealthyPass.uncrossed
    (pass : HealthyPass wallUtcSeconds monotonicSeconds alarms current evaluation final)
    (none : current.snapshot.occurrenceState.active = none → ∀ alarm ∈ alarms,
      crossedNow current.snapshot.occurrenceState wallUtcSeconds alarm = false) :
    final.2 = current := by
  induction pass with
  | done | unusable | refused => rfl
  | quiet decided usable keeps later ih =>
      exact ih fun idle alarm mem => none idle alarm (List.mem_cons_of_mem _ mem)
  | stored decided usable persists valid room later ih =>
      obtain ⟨idle, crossed⟩ := (decided_outcome decided).crossed (.inr persists)
      rw [none idle _ List.mem_cons_self] at crossed
      cases crossed

/-- A pass comes through the alarms that are not crossed. -/
theorem HealthyPass.skip {first rest : List StoredAlarmDefinition}
    (pass : HealthyPass wallUtcSeconds monotonicSeconds (first ++ rest) current evaluation final)
    (uncrossed : ∀ alarm ∈ first,
      crossedNow current.snapshot.occurrenceState wallUtcSeconds alarm = false) :
    ∃ between, HealthyPass wallUtcSeconds monotonicSeconds rest current between final := by
  induction first generalizing evaluation with
  | nil => exact ⟨evaluation, pass⟩
  | cons alarm more ih =>
      have here := uncrossed alarm List.mem_cons_self
      have later : ∀ other ∈ more, crossedNow current.snapshot.occurrenceState wallUtcSeconds
          other = false := fun other mem => uncrossed other (List.mem_cons_of_mem _ mem)
      cases pass with
      | quiet decided usable keeps rest => exact ih rest later
      | unusable decided status =>
          obtain ⟨-, crossed⟩ := (decided_outcome decided).crossed (.inl status)
          rw [here] at crossed
          cases crossed
      | refused decided usable persists | stored decided usable persists =>
          obtain ⟨-, crossed⟩ := (decided_outcome decided).crossed (.inr persists)
          rw [here] at crossed
          cases crossed

theorem HealthyPass.record
    (pass : HealthyPass wallUtcSeconds monotonicSeconds alarms current evaluation final)
    (record : ValidRecord current) : ValidRecord final.2 := by
  induction pass with
  | done | unusable | refused => exact record
  | quiet decided usable keeps later ih => exact ih record
  | stored decided usable persists valid room later ih => exact ih (record.withJournal valid)

/-- A pass records no `invalidTime` miss. -/
theorem HealthyPass.forwards {occurrenceId : Text}
    (pass : HealthyPass wallUtcSeconds monotonicSeconds alarms current evaluation final)
    (absent : ⟨occurrenceId, .invalidTime⟩ ∉ current.snapshot.occurrenceState.terminal) :
    ⟨occurrenceId, .invalidTime⟩ ∉ final.2.snapshot.occurrenceState.terminal := by
  induction pass with
  | done | unusable | refused => exact absent
  | quiet decided usable keeps later ih => exact ih absent
  | stored decided usable persists valid room later ih =>
      apply ih
      intro mem
      change _ ∈ PersistentAlarmState.terminal _ at mem
      obtain ⟨-, lateness, -, ⟨-, -, missed⟩ | ⟨-, -, admitted⟩⟩ :=
        (decided_outcome decided).journals persists
      · obtain rfl := missed
        rcases mem_appendTerminal mem with mem | same
        · exact absent mem
        · cases same
      · obtain rfl := admitted
        exact absent mem

end

/-! ### The evaluation -/

section

variable {current : Register} {active : ActiveOccurrence}
  {wallUtcSeconds monotonicSeconds : Int64} {bootId : Text}

/-- The alarm id the evaluation reports of an active occurrence. -/
def reportedAlarmId (occurrenceId : Text) : Text :=
  if (alarmIdFromOccurrenceId occurrenceId).isEmpty then occurrenceId
  else alarmIdFromOccurrenceId occurrenceId

/-- What the evaluation records of the active occurrence. -/
def activeEntry (active : ActiveOccurrence) (result : EvaluationResult) :
    CommittedAlarmEvaluation :=
  { alarmId := reportedAlarmId active.occurrenceId, result, fromActiveOccurrence := true }

/-- The evaluation a loaded record starts with. -/
def Register.evaluation (current : Register) : CommittedScheduleEvaluation :=
  { scheduleRevision := current.snapshot.revision, generation := current.generation }

theorem inStep_evaluation (current : Register) : InStep current current.evaluation := ⟨rfl, rfl⟩

/-- Without an active occurrence the evaluation is the due pass. -/
theorem exec_evaluate_idle (record : ValidRecord current)
    (idle : current.snapshot.occurrenceState.active = none) :
    exec healthyRegister
        (evaluateCommittedSchedule wallUtcSeconds monotonicSeconds true bootId) current =
      exec healthyRegister (evaluateAlarms wallUtcSeconds monotonicSeconds
        (sortAlarms current.snapshot.alarms) current.snapshot.occurrenceState current.evaluation)
        current := by
  simp only [evaluateCommittedSchedule, Bool.not_true, Bool.false_eq_true, if_false]
  rw [exec_load]
  simp only [record.loaded, ne_eq, not_true, if_false, idle]
  rfl

/-- The rest of an evaluation behind the stage of the active occurrence. -/
def afterStage (wallUtcSeconds monotonicSeconds : Int64) (alarms : List StoredAlarmDefinition)
    (journal : PersistentAlarmState) (current : Register) :
    Except CommittedScheduleEvaluation CommittedScheduleEvaluation →
      CommittedScheduleEvaluation × Register
  | .error evaluation => (evaluation, current)
  | .ok evaluation => exec healthyRegister
      (evaluateAlarms wallUtcSeconds monotonicSeconds (sortAlarms alarms) journal evaluation) current

/-- With one, the due pass follows its stage. -/
theorem exec_evaluate_active (record : ValidRecord current)
    (held : current.snapshot.occurrenceState.active = some active)
    {done : EvaluationResult × PersistentAlarmState}
    (transition : activeTransition current.snapshot.occurrenceState wallUtcSeconds
      monotonicSeconds bootId = done)
    {stage : Except CommittedScheduleEvaluation CommittedScheduleEvaluation × Register}
    (settled : exec healthyRegister (settleEvaluation done.2 current.evaluation
      (activeEntry active done.1)) current = stage) :
    exec healthyRegister
        (evaluateCommittedSchedule wallUtcSeconds monotonicSeconds true bootId) current =
      afterStage wallUtcSeconds monotonicSeconds current.snapshot.alarms done.2 stage.2 stage.1 := by
  have literal : exec healthyRegister (settleEvaluation done.2
      { scheduleRevision := current.snapshot.revision, generation := current.generation }
      { alarmId := if (alarmIdFromOccurrenceId active.occurrenceId).isEmpty then
            active.occurrenceId else alarmIdFromOccurrenceId active.occurrenceId
        result := done.1, fromActiveOccurrence := true }) current = stage := settled
  simp only [evaluateCommittedSchedule, Bool.not_true, Bool.false_eq_true, if_false]
  rw [exec_load]
  simp only [record.loaded, ne_eq, not_true, if_false, held, transition]
  rw [exec_bind, literal]
  obtain ⟨ended | evaluation, after⟩ := stage <;> rfl

end

/-! ### Reconciliation -/

section

variable {current : Register} {wallUtcSeconds monotonicSeconds : Int64}
  {state final : PersistentAlarmState} {older : List StoredAlarmDefinition}

theorem ValidJournal.missAll (valid : ValidJournal state) (idle : state.active = none)
    (ids : ValidIds older) (missed : older.foldlM journalMissed state = some final) :
    ValidJournal final := by
  induction older generalizing state with
  | nil =>
      cases missed
      exact valid
  | cons alarm rest ih =>
      simp only [List.foldlM_cons, Option.bind_eq_bind, Option.bind_eq_some_iff] at missed
      obtain ⟨middle, first, more⟩ := missed
      obtain ⟨room, rfl⟩ := journalMissed_eq_some first
      have fine : ValidJournal (missOccurrence state alarm .invalidTime) := by
        rw [missOccurrence_eq idle]
        exact valid.terminate (ids alarm List.mem_cons_self) room _
      exact ih fine (missOccurrence_idle idle _)
        (fun other mem => ids other (List.mem_cons_of_mem _ mem)) more

/-- The crossed candidates, newest last. -/
theorem crossedCandidates_eq {snapshot : ScheduleSnapshot} {newest : StoredAlarmDefinition}
    (last : (crossedCandidates snapshot wallUtcSeconds).getLast? = some newest) :
    crossedCandidates snapshot wallUtcSeconds =
      (crossedCandidates snapshot wallUtcSeconds).dropLast ++ [newest] :=
  (List.dropLast_append_getLast? newest last).symm

theorem mem_crossedCandidates {snapshot : ScheduleSnapshot} {alarm : StoredAlarmDefinition} :
    alarm ∈ crossedCandidates snapshot wallUtcSeconds ↔
      alarm ∈ snapshot.alarms ∧ crossedNow snapshot.occurrenceState wallUtcSeconds alarm = true :=
  mem_sortAlarms.trans List.mem_filter

theorem nodup_crossedCandidates {snapshot : ScheduleSnapshot}
    (ids : (snapshot.alarms.map (·.id)).Nodup) :
    ((crossedCandidates snapshot wallUtcSeconds).map (·.id)).Nodup :=
  ((sortAlarms_perm _).map _).nodup_iff.mpr (ids.sublist (List.filter_sublist.map _))

/-- A reconciled journal, as the batch leaves it. -/
structure Batch (snapshot : ScheduleSnapshot) (wallUtcSeconds monotonicSeconds : Int64)
    (newest : StoredAlarmDefinition) (lateness : Int64) (journal : PersistentAlarmState) :
    Prop where
  idle : snapshot.occurrenceState.active = none
  last : (crossedCandidates snapshot wallUtcSeconds).getLast? = some newest
  elapsed : checkedElapsed wallUtcSeconds newest.scheduledUtcSeconds = some lateness
  accepted : reconcileJournal snapshot.occurrenceState
    (crossedCandidates snapshot wallUtcSeconds).dropLast newest (lateness ≤ kLateGraceSeconds)
    wallUtcSeconds monotonicSeconds = some journal

theorem Batch.changes {snapshot : ScheduleSnapshot} {newest : StoredAlarmDefinition}
    {lateness : Int64} {journal : PersistentAlarmState}
    (batch : Batch snapshot wallUtcSeconds monotonicSeconds newest lateness journal) :
    journal ≠ snapshot.occurrenceState := by
  have crossed := (mem_crossedCandidates.mp (List.mem_of_getLast? batch.last)).2
  exact reconcileJournal_changed batch.idle (crossedNow_iff.mp crossed).2.2 batch.accepted

theorem Batch.valid {newest : StoredAlarmDefinition} {lateness : Int64}
    {journal : PersistentAlarmState} (record : ValidRecord current)
    (batch : Batch current.snapshot wallUtcSeconds monotonicSeconds newest lateness journal) :
    ValidJournal journal := by
  obtain ⟨middle, missed, room, rfl⟩ := reconcileJournal_eq_some batch.accepted
  have whole := crossedCandidates_eq batch.last
  have members : ∀ alarm ∈ crossedCandidates current.snapshot wallUtcSeconds,
      validString alarm.id kMaximumAlarmIdBytes = true := by
    intro alarm mem
    exact record.schedule.validIds alarm (mem_crossedCandidates.mp mem).1
  have idle := (foldlM_journalMissed_active missed).trans batch.idle
  have fine : ValidJournal middle :=
    record.journal.missAll batch.idle (fun alarm mem => members alarm (List.dropLast_subset _ mem))
      missed
  have newestId := members newest (List.mem_of_getLast? batch.last)
  split
  · have distinct := @nodup_crossedCandidates wallUtcSeconds _ record.schedule.ids
    rw [whole, List.map_append, List.nodup_append] at distinct
    have candidates : ∀ alarm ∈ crossedCandidates current.snapshot wallUtcSeconds,
        alarm ∈ current.snapshot.alarms ∧ alarm.enabled = true ∧
          alarm.scheduledUtcSeconds ≤ wallUtcSeconds ∧
          Unjournaled current.snapshot.occurrenceState alarm := by
      intro alarm mem
      obtain ⟨listed, crossed⟩ := mem_crossedCandidates.mp mem
      exact ⟨listed, crossedNow_iff.mp crossed⟩
    obtain ⟨-, -, kept⟩ := @foldlM_journalMissed_steps _ ⟨true, wallUtcSeconds, 0, []⟩ _ _ _
      batch.idle (fun alarm mem => candidates alarm (List.dropLast_subset _ mem)) distinct.1 missed
    have fresh := kept newest
      (fun again => distinct.2.2 _ again _ (List.mem_singleton_self _) rfl)
      (candidates newest (List.mem_of_getLast? batch.last)).2.2.2
    exact fine.admit fresh newestId _ _
  · rw [missOccurrence_eq idle]
    exact fine.terminate newestId room _

/-- A reconciliation over healthy storage. -/
inductive HealthyReconciliation (current : Register) (wallUtcSeconds monotonicSeconds : Int64) :
    InvalidTimeRecoveryResult × Register → Prop where
  | deferred {result : InvalidTimeRecoveryResult} (status : result.status = .activeConflict)
      (busy : current.snapshot.occurrenceState.active ≠ none) :
      HealthyReconciliation current wallUtcSeconds monotonicSeconds (result, current)
  | nothing {result : InvalidTimeRecoveryResult} (status : result.status = .nothingCrossed)
      (idle : current.snapshot.occurrenceState.active = none)
      (empty : crossedCandidates current.snapshot wallUtcSeconds = []) :
      HealthyReconciliation current wallUtcSeconds monotonicSeconds (result, current)
  | unknown {result : InvalidTimeRecoveryResult} {newest : StoredAlarmDefinition}
      (status : result.status = .invalidTime)
      (idle : current.snapshot.occurrenceState.active = none)
      (last : (crossedCandidates current.snapshot wallUtcSeconds).getLast? = some newest)
      (elapsed : checkedElapsed wallUtcSeconds newest.scheduledUtcSeconds = none) :
      HealthyReconciliation current wallUtcSeconds monotonicSeconds (result, current)
  | full {result : InvalidTimeRecoveryResult} {newest : StoredAlarmDefinition} {lateness : Int64}
      (status : result.status = .journalCapacity)
      (idle : current.snapshot.occurrenceState.active = none)
      (last : (crossedCandidates current.snapshot wallUtcSeconds).getLast? = some newest)
      (elapsed : checkedElapsed wallUtcSeconds newest.scheduledUtcSeconds = some lateness)
      (overflow : reconcileJournal current.snapshot.occurrenceState
        (crossedCandidates current.snapshot wallUtcSeconds).dropLast newest
        (lateness ≤ kLateGraceSeconds) wallUtcSeconds monotonicSeconds = none) :
      HealthyReconciliation current wallUtcSeconds monotonicSeconds (result, current)
  /-- The generations have run out. -/
  | refused {result : InvalidTimeRecoveryResult} {newest : StoredAlarmDefinition}
      {lateness : Int64} {journal : PersistentAlarmState}
      (status : result.status = .persistenceError)
      (batch : Batch current.snapshot wallUtcSeconds monotonicSeconds newest lateness journal)
      (exhausted : current.generation = uint64Max) :
      HealthyReconciliation current wallUtcSeconds monotonicSeconds (result, current)
  | reconciled {result : InvalidTimeRecoveryResult} {newest : StoredAlarmDefinition}
      {lateness : Int64} {journal : PersistentAlarmState} (status : result.status = .reconciled)
      (batch : Batch current.snapshot wallUtcSeconds monotonicSeconds newest lateness journal)
      (room : current.generation ≠ uint64Max) (valid : ValidJournal journal) :
      HealthyReconciliation current wallUtcSeconds monotonicSeconds
        (result, current.withJournal journal)

theorem exec_reconcileAfterTimeValid (record : ValidRecord current) :
    HealthyReconciliation current wallUtcSeconds monotonicSeconds
      (exec healthyRegister (reconcileAfterTimeValid wallUtcSeconds monotonicSeconds true)
        current) := by
  simp only [reconcileAfterTimeValid, Bool.not_true, Bool.false_eq_true, if_false]
  rw [exec_load]
  simp only [record.loaded, ne_eq, not_true, if_false]
  split
  · rename_i busy
    exact .deferred rfl (Option.isSome_iff_ne_none.mp busy)
  rename_i idle
  have idle : current.snapshot.occurrenceState.active = none := by simpa using idle
  split
  · rename_i none
    exact .nothing rfl idle (List.getLast?_eq_none_iff.mp none)
  rename_i newest last
  split
  · rename_i elapsed
    exact .unknown rfl idle last elapsed
  rename_i lateness elapsed
  split
  · rename_i overflow
    exact .full rfl idle last elapsed overflow
  rename_i journal accepted
  have batch : Batch current.snapshot wallUtcSeconds monotonicSeconds newest lateness journal :=
    ⟨idle, last, elapsed, accepted⟩
  rw [exec_commit record batch.changes]
  have valid := batch.valid record
  split
  · rename_i taken
    exact .reconciled rfl batch taken.2 valid
  · rename_i refusal
    refine .refused rfl batch ?_
    by_contra room
    exact refusal (record.writable.mpr ⟨valid, room⟩)

end

end DawnDock
