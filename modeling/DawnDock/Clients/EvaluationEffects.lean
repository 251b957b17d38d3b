import DawnDock.Clients.Effects
import DawnDock.Clients.Reconciliation

/-!
What a committed evaluation reports, against the durable journal.

Each stage reports what it has committed, except for the one that ends the evaluation:
it also reports the transition whose commit failed. A pass keeps the records of all the
occurrences it reports (`PassRecords`); the record of an active occurrence that is closed
in front of it is evicted by 32 newer ones (`EvaluationRecords`).
-/

namespace DawnDock

open AtomicProgram

/-! ### The evaluation pass -/

/-- The journal of a commit became durable. -/
def Lands (e : StoreEvent) : Prop :=
  ∀ journal revision generation, e.call = .saveOccurrenceState journal revision generation →
    e.after.journal = journal

/-- The pass works on the durable record, with the journal it has got to. -/
structure Evaluates (snapshot : ScheduleSnapshot) (state : PersistentAlarmState)
    (evaluation : CommittedScheduleEvaluation) (current : Register) : Prop where
  loaded : current.status = .loaded
  record : current.snapshot = { snapshot with occurrenceState := state }
  generation : evaluation.generation = current.generation
  revision : evaluation.scheduleRevision = snapshot.revision

theorem Evaluates.journal {snapshot : ScheduleSnapshot} {state : PersistentAlarmState}
    {evaluation : CommittedScheduleEvaluation} {current : Register}
    (h : Evaluates snapshot state evaluation current) : current.journal = state := by
  rw [Register.journal_of_loaded h.loaded, h.record]

/-- No call of the log evicts the record of the occurrence. -/
def Stays (occurrenceId : Text) (log : StoreLog) : Prop :=
  ∀ e ∈ log, Recorded e.before.journal occurrenceId → Recorded e.after.journal occurrenceId

theorem stays_append {occurrenceId : Text} {log more : StoreLog} :
    Stays occurrenceId (log ++ more) ↔ Stays occurrenceId log ∧ Stays occurrenceId more := by
  simp only [Stays, List.mem_append, or_imp, forall_and]

/-- The calls of one stage: none, or one commit. -/
def StageCalls (own : StoreLog) (state final : PersistentAlarmState) : Prop :=
  (own = [] ∧ final = state) ∨ ∃ e, own = [e] ∧ e.before.journal = state ∧ e.after.journal = final

/-- A stage evicts no record that it leaves, and none that it does not meet. -/
theorem StageCalls.stays {own : StoreLog} {state final : PersistentAlarmState} {occurrenceId : Text}
    (h : StageCalls own state final)
    (spares : Recorded state occurrenceId → Recorded final occurrenceId) :
    Stays occurrenceId own := by
  rcases h with ⟨rfl, -⟩ | ⟨e, rfl, before, after⟩
  · simp [Stays]
  · intro f mem recorded
    obtain rfl := List.mem_singleton.mp mem
    rw [before] at recorded
    rw [after]
    exact spares recorded

/-- A record that a stage meets is left exactly if it stays. -/
theorem StageCalls.stays_iff {own : StoreLog} {state final : PersistentAlarmState}
    {occurrenceId : Text} (h : StageCalls own state final)
    (recorded : Recorded state occurrenceId) :
    Stays occurrenceId own ↔ Recorded final occurrenceId := by
  refine ⟨fun stays => ?_, fun kept => h.stays fun _ => kept⟩
  rcases h with ⟨-, rfl⟩ | ⟨e, rfl, before, after⟩
  · exact recorded
  · rw [← after]
    exact stays e (List.mem_singleton_self _) (before ▸ recorded)

/-- What a pass of `count` turns does to the records, and to those of its own results. -/
structure PassRecords (count : ℕ) (state final : PersistentAlarmState) (own : StoreLog)
    (pushed : List CommittedAlarmEvaluation) : Prop where
  recorded : count ≤ kRecentTerminalRetention → (∀ e ∈ own, Lands e) →
    ∀ alarm ∈ pushed, (evaluationEffect alarm).RecordedIn final
  /-- A record with less than 32 occurrences behind it, those of the pass included, is kept. -/
  kept : ∀ occurrenceId behind, Behind behind state occurrenceId →
    behind + count < kRecentTerminalRetention → Recorded final occurrenceId
  /-- One with at most 32 is evicted by a call of the pass, or is kept. -/
  stays : ∀ occurrenceId behind, Behind behind state occurrenceId →
    behind + count ≤ kRecentTerminalRetention →
      (Recorded final occurrenceId ↔ Stays occurrenceId own)
  /-- While an occurrence is active nothing is recorded. -/
  busy : state.active ≠ none → ∀ occurrenceId, ¬ Recorded state occurrenceId →
    Stays occurrenceId own
  empty : count = 0 → own = [] ∧ final = state

/-- The calls of a part of the pass against the results it adds: all its commits become
durable exactly if the journal has what it reports, `records` aside. -/
def PassReported (snapshot : ScheduleSnapshot) (log : StoreLog) (before final : CommittedScheduleEvaluation)
    (log' : StoreLog) (after : Register)
    (records : StoreLog → List CommittedAlarmEvaluation → Prop) : Prop :=
  ∃ own pushed, log' = log ++ own ∧ (∀ e ∈ own, e.call ≠ .load) ∧
    final.alarms = before.alarms ++ pushed ∧
    ((∀ e ∈ own, Lands e) ↔
      ∀ alarm ∈ pushed, (evaluationEffect alarm).StandsIn snapshot after.journal) ∧
    records own pushed

/-- The part of a pass that a failed or unusable transition ends. -/
def PassEnded (first : ScheduleSnapshot) (state next : PersistentAlarmState) (log : StoreLog)
    (before final : CommittedScheduleEvaluation) (log' : StoreLog) (after : Register) : Prop :=
  PassReported first log before final log' after (fun own pushed =>
    StageCalls own state after.journal ∧
      ((∀ e ∈ own, Lands e) → ∀ alarm ∈ pushed, (evaluationEffect alarm).FreshIn after.journal)) ∧
    (after.journal = state ∨ after.journal = next)

/-- The calls of a stage whose commit went through. -/
def AllLand (state next : PersistentAlarmState) (log log' : StoreLog) : Prop :=
  ∃ own, log' = log ++ own ∧ (∀ e ∈ own, e.call ≠ .load ∧ Lands e) ∧ StageCalls own state next

/-- The entry is the result of the transition, whatever became of its edges. -/
structure ResultOf (done : EvaluationResult × PersistentAlarmState)
    (alarm : CommittedAlarmEvaluation) : Prop where
  status : alarm.result.status = done.1.status
  occurrenceId : alarm.result.occurrenceId = done.1.occurrenceId

/-- What a commit of the pass leaves. -/
def CommitDone (first snapshot : ScheduleSnapshot) (state : PersistentAlarmState)
    (done : EvaluationResult × PersistentAlarmState) (log : StoreLog)
    (before : CommittedScheduleEvaluation) :
    Except CommittedScheduleEvaluation (CommittedScheduleEvaluation × CommittedAlarmEvaluation) →
      StoreLog → Register → Prop
  | .error final, log', after => PassEnded first state done.2 log before final log' after
  | .ok (final, alarm), log', after => Evaluates snapshot done.2 final after ∧
      final.alarms = before.alarms ∧ (evaluationEffect alarm).StandsIn first done.2 ∧
      ResultOf done alarm ∧ AllLand state done.2 log log'

/-- What one stage of the pass leaves. -/
def StageDone (first snapshot : ScheduleSnapshot) (state : PersistentAlarmState)
    (done : EvaluationResult × PersistentAlarmState) (log : StoreLog)
    (before : CommittedScheduleEvaluation) :
    Except CommittedScheduleEvaluation CommittedScheduleEvaluation → StoreLog → Register → Prop
  | .error final, log', after => PassEnded first state done.2 log before final log' after
  | .ok final, log', after => Evaluates snapshot done.2 final after ∧
      ∃ alarm, final.alarms = before.alarms ++ [alarm] ∧
        (evaluationEffect alarm).StandsIn first done.2 ∧ ResultOf done alarm ∧
        AllLand state done.2 log log'

section

variable {allowed : StorageFaults → Prop} {first snapshot : ScheduleSnapshot}
  {state : PersistentAlarmState} {evaluation : CommittedScheduleEvaluation}
  {alarm : CommittedAlarmEvaluation} {current : Register} {log : StoreLog}
  {stage : RuntimeEffectStage}

/-- One result that holds, with calls that all land. -/
theorem reported_single {own : StoreLog} {journal : PersistentAlarmState}
    (lands : ∀ e ∈ own, Lands e) (holds : (evaluationEffect alarm).StandsIn first journal) :
    (∀ e ∈ own, Lands e) ↔
      ∀ other ∈ [alarm], (evaluationEffect other).StandsIn first journal := by
  simp only [List.mem_singleton, forall_eq]
  exact ⟨fun _ => holds, fun _ => lands⟩

theorem ResultOf.fresh {done : EvaluationResult × PersistentAlarmState}
    (same : ResultOf done alarm) (fresh : Freshens done) :
    (evaluationEffect alarm).FreshIn done.2 := by
  intro closes
  rw [show (evaluationEffect alarm).status = done.1.status from same.status] at closes
  rw [show (evaluationEffect alarm).occurrenceId = done.1.occurrenceId from same.occurrenceId]
  exact (fresh closes).2

theorem ensures_commitOccurrenceTransition {done : EvaluationResult × PersistentAlarmState}
    (evaluates : Evaluates snapshot state evaluation current)
    (reflects : Reflects first stage state done) (result : alarm.result = done.1)
    (fresh : Freshens done)
    (effect : ∀ journal, (evaluationEffect alarm).StandsIn first journal ↔
      Holds first stage done.1.status done.1.occurrenceId journal) :
    Ensures (Answers allowed) (CommitDone first snapshot state done log evaluation)
      (commitOccurrenceTransition done.2 evaluation alarm) log current := by
  unfold commitOccurrenceTransition
  have own : ResultOf done alarm := ⟨congrArg (·.status) result, congrArg (·.occurrenceId) result⟩
  have last := own.fresh fresh
  cases persists : done.1.persistBeforeEffects with
  | false =>
      obtain ⟨same, holds⟩ := reflects.idle persists
      rw [if_pos (by rw [result, persists]; rfl)]
      refine ⟨?_, rfl, ?_, own, [], by simp, by simp, .inl ⟨rfl, same⟩⟩
      · rwa [same]
      · rw [same]
        exact (effect _).mpr holds
  | true =>
      obtain ⟨-, holds, fresh⟩ := reflects.moved persists
      rw [if_neg (by rw [result, persists]; simp)]
      refine ensures_saveOccurrenceState.bind ?_
      rintro committed log' after ⟨rfl, outcome⟩
      dsimp only
      have differ : state ≠ done.2 := by
        rintro rfl
        exact fresh holds
      have stateOf : current.snapshot.occurrenceState = state := by rw [evaluates.record]
      have lands : Lands ⟨current, .saveOccurrenceState done.2 evaluation.scheduleRevision
          evaluation.generation, committed, after⟩ ↔ after.journal = done.2 := by
        constructor
        · exact fun lands => lands _ _ _ rfl
        · rintro journaled journal revision generation ⟨⟩
          exact journaled
      by_cases confirmed : committed.status.committed = true
      · have stored : committed.status = .stored ∧ committed.generation = current.generation + 1 ∧
            after = current.withJournal done.2 := by
          cases outcome with
          | refused failed | unconfirmed failed =>
              rw [failed] at confirmed
              cases confirmed
          | unchanged _ _ _ _ held => exact absurd (stateOf.symm.trans held) differ
          | stored stored reported => exact ⟨stored, reported, rfl⟩
        obtain ⟨stored, reported, rfl⟩ := stored
        simp only [confirmed, Bool.not_true, Bool.false_eq_true, if_false]
        rw [if_neg (by simp [stored])]
        have evaluates' : Evaluates snapshot done.2
            { evaluation with generation := committed.generation } (current.withJournal done.2) :=
          ⟨rfl, by rw [Register.withJournal, evaluates.record]; rfl, reported, evaluates.revision⟩
        refine ⟨evaluates', rfl, (effect _).mpr holds, ⟨own.status, own.occurrenceId⟩, _, rfl, ?_,
          .inr ⟨_, rfl, evaluates.journal, rfl⟩⟩
        simp only [List.mem_singleton, forall_eq]
        exact ⟨by simp, lands.mpr rfl⟩
      · have failed : committed.status.committed = false := by simpa using confirmed
        simp only [failed, Bool.not_false, if_true]
        have left := outcome.journal_cases
        rw [evaluates.journal] at left
        refine ⟨⟨_, [_], rfl, by simp, rfl, ?_, .inr ⟨_, rfl, evaluates.journal, rfl⟩, ?_⟩, left⟩
        all_goals simp only [List.mem_singleton, forall_eq, lands]
        swap
        · intro journaled
          rw [journaled]
          exact last
        refine Iff.trans ?_ (effect _).symm
        rcases left with left | left
        · rw [left]
          exact ⟨fun same => absurd same differ, fun holds => absurd holds fresh⟩
        · rw [left]
          exact ⟨fun _ => holds, fun _ => rfl⟩

/-- A stage of the pass. -/
theorem ensures_settleEvaluation {done : EvaluationResult × PersistentAlarmState}
    (evaluates : Evaluates snapshot state evaluation current)
    (reflects : Reflects first stage state done) (result : alarm.result = done.1)
    (fresh : Freshens done)
    (staged : (evaluationEffect alarm).stage = stage) :
    Ensures (Answers allowed) (StageDone first snapshot state done log evaluation)
      (settleEvaluation done.2 evaluation alarm) log current := by
  have effect (journal : PersistentAlarmState) : (evaluationEffect alarm).StandsIn first journal ↔
      Holds first stage done.1.status done.1.occurrenceId journal := by
    rw [RuntimeTickEffect.StandsIn, staged, ← result]
    rfl
  unfold settleEvaluation
  split
  · rename_i invalid
    have holds : (evaluationEffect alarm).StandsIn first current.journal := by
      rw [effect, ← result, invalid]
      trivial
    refine ⟨⟨[], [alarm], by simp, by simp, rfl, reported_single (by simp) holds,
      .inl ⟨rfl, evaluates.journal⟩, ?_⟩, .inl evaluates.journal⟩
    intro _ other mem closes
    obtain rfl := List.mem_singleton.mp mem
    rcases closes with closes | closes
    all_goals
      rw [show (evaluationEffect other).status = .invalidTime from invalid] at closes
      cases closes
  refine (ensures_commitOccurrenceTransition evaluates reflects result fresh effect).bind ?_
  rintro (final | ⟨final, reported⟩) log' after progress
  · exact progress
  · obtain ⟨evaluates', alarms, holds, own, landed⟩ := progress
    refine ⟨⟨evaluates'.loaded, evaluates'.record, evaluates'.generation, evaluates'.revision⟩,
      reported, ?_, holds, own, landed⟩
    rw [CommittedScheduleEvaluation.push, alarms]

theorem Keeps.trans {before middle after : PersistentAlarmState} (h : Keeps first before middle)
    (h' : Keeps first middle after) : Keeps first before after :=
  fun effect holds => h' effect (h effect holds)

/-- A stage that went through, and what follows it. -/
theorem PassReported.after {middle final : CommittedScheduleEvaluation} {log' log'' : StoreLog}
    {next : PersistentAlarmState} {after : Register}
    {records : StoreLog → List CommittedAlarmEvaluation → Prop}
    (landed : AllLand state next log log')
    (alarms : middle.alarms = evaluation.alarms ++ [alarm])
    (holds : (evaluationEffect alarm).StandsIn first next) (keeps : Keeps first next after.journal)
    (rest : PassReported first log' middle final log'' after records) :
    PassReported first log evaluation final log'' after (fun own pushed =>
      ∃ stage more others, own = stage ++ more ∧ pushed = alarm :: others ∧
        StageCalls stage state next ∧ records more others) := by
  obtain ⟨own, rfl, landed, calls⟩ := landed
  obtain ⟨more, pushed, rfl, quiet, alarms', reports, recorded⟩ := rest
  refine ⟨own ++ more, alarm :: pushed, by rw [List.append_assoc], ?_, ?_, ?_,
    own, more, pushed, rfl, rfl, calls, recorded⟩
  · intro e mem
    rcases List.mem_append.mp mem with mem | mem
    · exact (landed e mem).1
    · exact quiet e mem
  · rw [alarms', alarms, List.append_assoc, List.singleton_append]
  · have first' : (∀ e ∈ own ++ more, Lands e) ↔ ∀ e ∈ more, Lands e := by
      simp only [List.mem_append]
      exact ⟨fun lands e mem => lands e (.inr mem), fun lands e mem =>
        mem.elim (fun mem => (landed e mem).2) (lands e)⟩
    rw [first', reports, List.forall_mem_cons]
    exact ⟨fun rest => ⟨keeps _ holds, rest⟩, fun whole => whole.2⟩

theorem PassReported.records {final : CommittedScheduleEvaluation} {log' : StoreLog}
    {after : Register} {records records' : StoreLog → List CommittedAlarmEvaluation → Prop}
    (h : PassReported first log evaluation final log' after records)
    (implies : ∀ own pushed, records own pushed → records' own pushed) :
    PassReported first log evaluation final log' after records' := by
  obtain ⟨own, pushed, log, quiet, alarms, reports, recorded⟩ := h
  exact ⟨own, pushed, log, quiet, alarms, reports, implies own pushed recorded⟩

section

variable {count : ℕ} {own more : StoreLog} {pushed : List CommittedAlarmEvaluation}
  {next final : PersistentAlarmState}

/-- The last turn of a pass. -/
theorem passRecords_ended (calls : StageCalls own state final)
    (turn : ∀ occurrenceId behind, Behind behind state occurrenceId →
      Behind (behind + 1) final occurrenceId ∨ kRecentTerminalRetention ≤ behind + 1)
    (fresh : (∀ e ∈ own, Lands e) → ∀ alarm ∈ pushed, (evaluationEffect alarm).FreshIn final) :
    PassRecords (count + 1) state final own pushed where
  recorded _ lands alarm mem closes := (fresh lands alarm mem closes).recorded
  kept occurrenceId behind held few := by
    rcases turn occurrenceId behind held with pushedBack | full
    · exact pushedBack.recorded
    · omega
  stays occurrenceId behind held _ := (calls.stays_iff held.recorded).symm
  busy _ occurrenceId unrecorded := calls.stays fun recorded => absurd recorded unrecorded
  empty none := by cases none

/-- One more turn in front of a pass. -/
theorem PassRecords.cons (calls : StageCalls own state next)
    (turn : ∀ occurrenceId behind, Behind behind state occurrenceId →
      Behind (behind + 1) next occurrenceId ∨ kRecentTerminalRetention ≤ behind + 1)
    (quiet : state.active ≠ none → next = state)
    (fresh : (evaluationEffect alarm).FreshIn next)
    (rest : PassRecords count next final more pushed) :
    PassRecords (count + 1) state final (own ++ more) (alarm :: pushed) where
  recorded few lands := by
    rw [List.forall_mem_cons]
    refine ⟨fun closes => rest.kept _ 0 (fresh closes) (by omega), ?_⟩
    exact rest.recorded (by omega) fun e mem => lands e (List.mem_append_right _ mem)
  kept occurrenceId behind held few := by
    rcases turn occurrenceId behind held with pushedBack | full
    · exact rest.kept occurrenceId _ pushedBack (by omega)
    · omega
  stays occurrenceId behind held few := by
    rcases turn occurrenceId behind held with pushedBack | full
    · rw [stays_append, rest.stays occurrenceId _ pushedBack (by omega)]
      exact (and_iff_right (calls.stays fun _ => pushedBack.recorded)).symm
    · -- Nothing is left to evict another record.
      obtain ⟨rfl, rfl⟩ := rest.empty (by omega)
      rw [List.append_nil]
      exact (calls.stays_iff held.recorded).symm
  busy active occurrenceId unrecorded := by
    obtain rfl := quiet active
    exact stays_append.mpr ⟨calls.stays fun recorded => absurd recorded unrecorded,
      rest.busy active occurrenceId unrecorded⟩
  empty none := by cases none

end

/-- The pass over the schedule. -/
theorem ensures_evaluateAlarms {observation : RuntimeTickObservation}
    {alarms : List StoredAlarmDefinition}
    (evaluates : Evaluates snapshot state evaluation current)
    (sub : ∀ alarm ∈ alarms, alarm ∈ first.alarms) :
    Ensures (Answers allowed) (fun final log' after => Keeps first state after.journal ∧
      PassReported first log evaluation final log' after
        (PassRecords alarms.length state after.journal))
      (evaluateAlarms observation.wallUtcSeconds observation.monotonicSeconds alarms state
        evaluation) log current := by
  induction alarms generalizing state evaluation log current with
  | nil =>
      rw [← evaluates.journal]
      refine ⟨fun _ => id, [], [], by simp, by simp, by simp, by simp, ?_⟩
      refine ⟨by simp, fun _ _ held _ => held.recorded, fun _ _ held _ => ?_, by simp [Stays],
        fun _ => ⟨rfl, rfl⟩⟩
      exact ⟨fun _ => by simp [Stays], fun _ => held.recorded⟩
  | cons stored rest ih =>
      have mem := sub stored List.mem_cons_self
      have keeps := @keeps_evaluateDue first observation state stored mem
      have turn (occurrenceId : Text) (behind : ℕ) (held : Behind behind state occurrenceId) :=
        @behind_evaluateDue observation.wallUtcSeconds observation.monotonicSeconds state stored
          occurrenceId behind held
      refine (ensures_settleEvaluation evaluates (@reflects_evaluateDue first observation state
        stored mem) rfl (freshens_evaluateDue _ _ _ _) rfl).bind ?_
      rintro (final | final) log' after progress
      · obtain ⟨reported, left⟩ := progress
        refine ⟨?_, reported.records fun own pushed ended =>
          passRecords_ended ended.1 (fun occurrenceId behind held => ?_) ended.2⟩
        · rcases left with same | next
          · exact same ▸ fun _ => id
          · exact next ▸ keeps
        · rcases left with same | next
          · exact .inl (same ▸ held.mono (Nat.le_succ _))
          · exact next ▸ turn occurrenceId behind held
      · obtain ⟨evaluates', alarm, alarms, holds, own, landed⟩ := progress
        refine (ih evaluates' fun other later => sub other (List.mem_cons_of_mem _ later)).post ?_
        rintro final' log'' after' ⟨keeps', reported⟩
        refine ⟨keeps.trans keeps', (reported.after landed alarms holds keeps').records ?_⟩
        rintro _ _ ⟨stage, more, others, rfl, rfl, calls, records⟩
        exact records.cons calls turn (fun active => evaluateDue_busy active)
          (own.fresh (freshens_evaluateDue _ _ _ _))

/-- The record still has the schedule and the occurrence the tick began with. -/
structure SameRecord (first : ScheduleSnapshot) (current : Register) : Prop where
  alarms : current.snapshot.alarms = first.alarms
  occurrence : ActiveNamed first current.snapshot.occurrenceState

/-- Where the occurrence stands that was active when the tick began: it still is, without a
record, or it is over and its record is the last one. -/
structure Tracked (began journal : PersistentAlarmState) : Prop where
  origin : ∀ b ∈ journal.active, ∃ a ∈ began.active, a.occurrenceId = b.occurrenceId
  stands : ∀ a ∈ began.active, (journal.active = none ∧ Behind 0 journal a.occurrenceId) ∨
    (journal.active ≠ none ∧ ¬ Recorded journal a.occurrenceId)

/-- If it was over in `journal`, `final` still has its record. -/
def Kept (began journal final : PersistentAlarmState) : Prop :=
  ∀ a ∈ began.active, journal.active = none → Recorded final a.occurrenceId

/-- No call evicts the record of the occurrence that was active when the tick began. -/
def KeepsEnded (began : PersistentAlarmState) (log : StoreLog) : Prop :=
  ∀ a ∈ began.active, Stays a.occurrenceId log

/-- The calls and the results of an evaluation of `count` alarms from `journal` on. -/
structure EvaluationRecords (count : ℕ) (began journal final : PersistentAlarmState)
    (own : StoreLog) (pushed : List CommittedAlarmEvaluation) : Prop where
  /-- If every commit becomes durable, the reported records are kept exactly if no call evicts
  that of the occurrence. -/
  kept : (∀ e ∈ own, Lands e) →
    ((Kept began journal final ∧ ∀ alarm ∈ pushed, (evaluationEffect alarm).RecordedIn final) ↔
      KeepsEnded began own)
  /-- It takes 32 alarms to evict it. -/
  spares : count < kRecentTerminalRetention → KeepsEnded began own

section

variable {began journal next final : PersistentAlarmState} {own stage more : StoreLog}
  {pushed others : List CommittedAlarmEvaluation} {count : ℕ}

theorem keepsEnded_append : KeepsEnded began (own ++ more) ↔
    KeepsEnded began own ∧ KeepsEnded began more := by
  simp only [KeepsEnded, stays_append, forall_and]

theorem keepsEnded_load {load : StoreEvent} (quiet : load.before.journal = load.after.journal) :
    KeepsEnded began (load :: own) ↔ KeepsEnded began own := by
  rw [← List.singleton_append, keepsEnded_append]
  refine and_iff_right fun a _ e mem recorded => ?_
  obtain rfl := List.mem_singleton.mp mem
  rwa [← quiet]

theorem Tracked.behind (tracked : Tracked began journal) (idle : journal.active = none) :
    ∀ a ∈ began.active, Behind 0 journal a.occurrenceId := by
  intro a held
  rcases tracked.stands a held with ⟨-, behind⟩ | ⟨busy, -⟩
  · exact behind
  · exact absurd idle busy

theorem Tracked.kept (tracked : Tracked began journal) : Kept began journal journal :=
  fun a held idle => (tracked.behind idle a held).recorded

/-- Once it is over, one stage keeps its record exactly if none of its calls evicts it. -/
theorem Tracked.kept_iff (tracked : Tracked began journal) (idle : journal.active = none)
    (calls : StageCalls own journal final) : Kept began journal final ↔ KeepsEnded began own := by
  refine forall₂_congr fun a held => ?_
  rw [calls.stays_iff (tracked.behind idle a held).recorded]
  exact ⟨fun kept => kept idle, fun recorded _ => recorded⟩

/-- While it is active its record is not there to be evicted. -/
theorem Tracked.keepsEnded (tracked : Tracked began journal) (busy : journal.active ≠ none)
    (calls : StageCalls own journal final) : KeepsEnded began own := by
  intro a held
  rcases tracked.stands a held with ⟨idle, -⟩ | ⟨-, unrecorded⟩
  · exact absurd idle busy
  · exact calls.stays fun recorded => absurd recorded unrecorded

theorem evaluationRecords_idle (tracked : Tracked began journal) (idle : journal.active = none)
    (few : count ≤ kRecentTerminalRetention)
    (records : PassRecords count journal final own pushed) :
    EvaluationRecords count began journal final own pushed := by
  have behind := tracked.behind idle
  have stays (a : ActiveOccurrence) (held : a ∈ began.active) :
      Recorded final a.occurrenceId ↔ Stays a.occurrenceId own :=
    records.stays _ 0 (behind a held) (by omega)
  refine ⟨fun lands => ⟨?_, fun keeps => ?_⟩, fun spare a held => ?_⟩
  · rintro ⟨kept, -⟩ a held
    exact (stays a held).mp (kept a held idle)
  · exact ⟨fun a held _ => (stays a held).mpr (keeps a held), records.recorded few lands⟩
  · exact (stays a held).mp (records.kept _ 0 (behind a held) (by omega))

theorem evaluationRecords_ended (tracked : Tracked began journal) (busy : journal.active ≠ none)
    (calls : StageCalls own journal final)
    (fresh : (∀ e ∈ own, Lands e) → ∀ alarm ∈ pushed, (evaluationEffect alarm).FreshIn final) :
    EvaluationRecords count began journal final own pushed := by
  have keeps := tracked.keepsEnded busy calls
  refine ⟨fun lands => ⟨fun _ => keeps, fun _ => ⟨?_, ?_⟩⟩, fun _ => keeps⟩
  · intro a _ idle
    exact absurd idle busy
  · intro alarm mem closes
    exact (fresh lands alarm mem closes).recorded

/-- The stage of the active occurrence, and the pass behind it. -/
theorem evaluationRecords_after {active : ActiveOccurrence}
    {done : EvaluationResult × PersistentAlarmState} (tracked : Tracked began journal)
    (held : journal.active = some active) (few : count ≤ kRecentTerminalRetention)
    (progress : Progress journal active done) (result : ResultOf done alarm)
    (fresh : Freshens done) (calls : StageCalls stage journal done.2)
    (records : PassRecords count done.2 final more others) :
    EvaluationRecords count began journal final (stage ++ more) (alarm :: others) := by
  have busy : journal.active ≠ none := by simp [held]
  obtain ⟨a, begun, name⟩ := tracked.origin active held
  have unrecorded : ¬ Recorded journal active.occurrenceId := by
    rcases tracked.stands a begun with ⟨idle, -⟩ | ⟨-, unrecorded⟩
    · exact absurd idle busy
    · rwa [← name]
  have keeps : KeepsEnded began (stage ++ more) ↔ Stays active.occurrenceId more := by
    rw [keepsEnded_append, and_iff_right (tracked.keepsEnded busy calls), KeepsEnded,
      show began.active = some a from begun, ← name]
    simp
  have vacuous : Kept began journal final := fun _ _ idle => absurd idle busy
  -- Whether the reported record is kept depends on the stage alone.
  have staged : ((evaluationEffect alarm).RecordedIn final ↔ Stays active.occurrenceId more) ∧
      (count < kRecentTerminalRetention → Stays active.occurrenceId more) := by
    cases progress with
    | goesOn opens going name' kept =>
        have stays := records.busy (by simp [going]) active.occurrenceId (by rwa [Recorded, kept])
        exact ⟨⟨fun _ => stays, fun _ closes => absurd (result.status ▸ closes) opens⟩,
          fun _ => stays⟩
    | closes closing persists name' =>
        have behind : Behind 0 _ active.occurrenceId := name' ▸ (fresh closing).2
        have stays := records.stays _ 0 behind (by omega)
        have closed : (evaluationEffect alarm).RecordedIn final ↔
            Recorded final active.occurrenceId := by
          rw [RuntimeTickEffect.RecordedIn,
            show (evaluationEffect alarm).occurrenceId = active.occurrenceId from
              result.occurrenceId.trans name',
            show (evaluationEffect alarm).status = _ from result.status]
          exact forall_prop_of_true closing
        exact ⟨closed.trans stays, fun spare => stays.mp (records.kept _ 0 behind (by omega))⟩
  refine ⟨fun lands => ?_, fun spare => keeps.mpr (staged.2 spare)⟩
  have pass := records.recorded few fun e mem => lands e (List.mem_append_right _ mem)
  rw [keeps, List.forall_mem_cons, and_iff_right vacuous, and_iff_left pass]
  exact staged.1

theorem freshens_of_progress {active : ActiveOccurrence}
    {done : EvaluationResult × PersistentAlarmState} (progress : Progress journal active done)
    (unrecorded : ¬ Recorded journal active.occurrenceId) : Freshens done := by
  intro closes
  cases progress with
  | goesOn opens => exact absurd closes opens
  | closes _ persists name =>
      refine ⟨persists, ?_⟩
      rw [name]
      exact behind_closeActive unrecorded _

end

/-- The calls and the results of an evaluation: a load, and a pass that reports. -/
def EvaluationReported (first : ScheduleSnapshot) (began journal : PersistentAlarmState)
    (log : StoreLog) (final : CommittedScheduleEvaluation) (log' : StoreLog) (after : Register) :
    Prop :=
  ∃ load, load.call = .load ∧ load.before.journal = load.after.journal ∧
    PassReported first (log ++ [load]) {} final log' after
      (EvaluationRecords first.alarms.length began journal after.journal)

/-- An evaluation without a boot. What held before and holds of the advanced journal
is kept. -/
theorem ensures_evaluateCommittedSchedule {began : PersistentAlarmState}
    (wallUtcSeconds monotonicSeconds : Int64)
    (same : current.status = .loaded → SameRecord first current)
    (tracked : Tracked began current.journal) :
    Ensures (Answers allowed) (fun final log' after =>
      EvaluationReported first began current.journal log final log' after ∧
      ∀ effect : RuntimeTickEffect, effect.StandsIn first current.journal →
        effect.StandsIn first (advanceActive current.journal monotonicSeconds).2 →
          effect.StandsIn first after.journal)
      (evaluateCommittedSchedule wallUtcSeconds monotonicSeconds true []) log current := by
  unfold evaluateCommittedSchedule
  rw [if_neg (by simp)]
  refine (ensures_load allowed log current).bind ?_
  rintro loaded log' after ⟨rfl, rfl, returned⟩
  split
  · have keeps : KeepsEnded began [] := by simp [KeepsEnded, Stays]
    exact ⟨⟨⟨after, .load, loaded, after⟩, rfl, rfl, [], [], by simp, by simp, by simp, by simp,
      fun _ => ⟨fun _ => keeps, fun _ => ⟨tracked.kept, by simp⟩⟩, fun _ => keeps⟩,
      fun _ holds _ => holds⟩
  rename_i isLoaded
  obtain ⟨rfl, valid⟩ := returned (not_not.mp isLoaded)
  have isLoaded := not_not.mp isLoaded
  obtain ⟨alarms, occurrence⟩ := same isLoaded
  have sub : ∀ alarm ∈ sortAlarms loaded.snapshot.alarms, alarm ∈ first.alarms := by
    intro alarm mem
    rw [← alarms]
    exact mem_sortAlarms.mp mem
  have length : (sortAlarms loaded.snapshot.alarms).length = first.alarms.length := by
    rw [(sortAlarms_perm _).length_eq, alarms]
  have few : first.alarms.length ≤ kRecentTerminalRetention := by
    rw [← alarms]
    exact (validateSnapshot_iff.mp valid).1.count
  have evaluates : Evaluates loaded.snapshot loaded.snapshot.occurrenceState
      { scheduleRevision := loaded.snapshot.revision, generation := loaded.generation } loaded :=
    ⟨isLoaded, rfl, rfl, rfl⟩
  rw [Register.journal_of_loaded isLoaded] at tracked ⊢
  dsimp only
  split
  · rename_i idle
    refine (@ensures_evaluateAlarms _ _ _ _ _ _ _ ⟨true, wallUtcSeconds, monotonicSeconds, []⟩ _
      evaluates sub).post ?_
    rintro final log' after ⟨keeps, reported⟩
    rw [length] at reported
    exact ⟨⟨_, rfl, rfl, reported.records fun _ _ => evaluationRecords_idle tracked idle few⟩,
      fun effect holds _ => keeps effect holds⟩
  · rename_i active held
    have busy : loaded.snapshot.occurrenceState.active ≠ none := by simp [held]
    have progress := advanceActive_progress held monotonicSeconds
    have fresh := freshens_of_progress progress
      ((validateSnapshot_iff.mp valid).2.activeNotTerminal active held)
    refine (ensures_settleEvaluation evaluates
      (reflects_advanceActive occurrence monotonicSeconds) rfl fresh rfl).bind ?_
    rintro (final | final) log' after staged
    · obtain ⟨reported, left⟩ := staged
      refine ⟨⟨_, rfl, rfl, reported.records fun _ _ ended =>
        evaluationRecords_ended tracked busy ended.1 ended.2⟩, ?_⟩
      rcases left with same | next
      · exact fun effect holds _ => by rwa [same]
      · exact fun effect _ advanced => by rwa [next]
    · obtain ⟨evaluates', alarm, pushed, holds, own, landed⟩ := staged
      refine (@ensures_evaluateAlarms _ _ _ _ _ _ _ ⟨true, wallUtcSeconds, monotonicSeconds, []⟩
        _ evaluates' sub).post ?_
      rintro final' log'' after' ⟨keeps, reported⟩
      rw [length] at reported
      refine ⟨⟨_, rfl, rfl, (reported.after landed pushed holds keeps).records ?_⟩,
        fun effect _ advanced => keeps effect advanced⟩
      rintro _ _ ⟨stage, more, others, rfl, rfl, calls, records⟩
      exact evaluationRecords_after tracked held few progress own fresh calls records

end

end DawnDock
