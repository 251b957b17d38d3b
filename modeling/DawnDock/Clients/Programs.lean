import DawnDock.Clients.Rely
import DawnDock.Journal.Sound

/-!
The alert edges every client exposes.

For each client of the store: the edges in its result are exactly the edges its
own calls expose (`Exposing`), whatever the other clients do. `Sees` is the
precondition of a commit: the record the client's last call left, on which the
next journal is planned.

* `meets_evaluateCommittedSchedule`, `meets_reconcileAfterTimeValid`,
  `meets_runRuntimeTick`, `meets_disableCommittedAlarm`, `meets_commitControl`.
-/

namespace DawnDock

open AtomicProgram

/-! ### The edges of a result -/

def CommittedScheduleEvaluation.edges (evaluation : CommittedScheduleEvaluation) :
    List AlertEdge := evaluation.alarms.flatMap (·.result.edges)

def InvalidTimeRecoveryResult.edges (recovery : InvalidTimeRecoveryResult) : List AlertEdge :=
  alertEdges recovery.ringingOccurrenceId recovery.startAlert false

def RuntimeTickEffect.edges (effect : RuntimeTickEffect) : List AlertEdge :=
  alertEdges effect.occurrenceId effect.startAlert effect.stopAlert

def RuntimeTickResult.edges (result : RuntimeTickResult) : List AlertEdge :=
  result.effects.flatMap (·.edges)

def CommittedAlarmDisableResult.edges (result : CommittedAlarmDisableResult) : List AlertEdge :=
  alertEdges result.occurrenceId false result.stopAlert

theorem CommittedScheduleEvaluation.edges_push (evaluation : CommittedScheduleEvaluation)
    (alarm : CommittedAlarmEvaluation) :
    (evaluation.push alarm).edges = evaluation.edges ++ alarm.result.edges := by
  simp [CommittedScheduleEvaluation.push, CommittedScheduleEvaluation.edges]

/-! ### Logs and what they show -/

/-- The calls made since `log` expose `edges`. -/
def Exposing (observation : RuntimeTickObservation) (stages : CommitStage → Prop) (log : StoreLog)
    (edges : List AlertEdge) (log' : StoreLog) : Prop :=
  ∃ own, log' = log ++ own ∧ Exposes observation stages log own edges

/-- The record the last call left. -/
def Sees (log : StoreLog) (snapshot : ScheduleSnapshot) (generation : UInt64) : Prop :=
  ∃ seen, log.getLast? = some seen ∧ seen.after.status = .loaded ∧
    seen.after.snapshot = snapshot ∧ seen.after.generation = generation

section

variable {observation : RuntimeTickObservation} {stages : CommitStage → Prop}
  {log log' log'' : StoreLog} {edges more : List AlertEdge} {snapshot : ScheduleSnapshot} {generation : UInt64}
  {stage : CommitStage} {journal : PersistentAlarmState}

theorem Exposing.refl : Exposing observation stages log [] log := ⟨[], by simp, .nil⟩

theorem Exposing.trans (first : Exposing observation stages log edges log')
    (second : Exposing observation stages log' more log'') :
    Exposing observation stages log (edges ++ more) log'' := by
  obtain ⟨own, rfl, first⟩ := first
  obtain ⟨later, rfl, second⟩ := second
  exact ⟨own ++ later, by rw [List.append_assoc], first.append second⟩

theorem Exposure.exposing {e : StoreEvent} (h : Exposure observation stages log e edges) :
    Exposing observation stages log edges (log ++ [e]) := ⟨[e], rfl, h.single⟩

/-- A load that succeeds returns the record and leaves it. -/
theorem StoreRely.load {before after : Register} {reply : StoreReply StoreCall.load}
    (rely : StoreRely log ⟨before, .load, reply, after⟩) (loaded : reply.status = .loaded) :
    before = reply ∧ after = reply := by
  obtain ⟨faults, answer⟩ := rely.answered
  obtain ⟨replied, kept⟩ := Prod.mk.inj answer
  simp only at replied kept
  split at replied
  · rw [← replied] at loaded
    cases loaded
  · exact ⟨replied, kept.symm.trans replied⟩

theorem meets_load (observation : RuntimeTickObservation) (stages : CommitStage → Prop)
    (log : StoreLog) :
    Meets StoreRely (fun loaded log' => Exposing observation stages log [] log' ∧
      (loaded.status = .loaded → Sees log' loaded.snapshot loaded.generation ∧
        validateSnapshot loaded.snapshot = true)) AtomicScheduleStore.load log := by
  intro before reply after rely
  constructor
  · exact (Exposure.silent (by simp) (by simp)).exposing
  · intro loaded
    obtain ⟨rfl, rfl⟩ := rely.load loaded
    exact ⟨⟨_, List.getLast?_concat, loaded, rfl, rfl⟩, rely.valid loaded⟩

/-- Committing a planned journal; a confirmed commit leaves the planned record. -/
theorem meets_saveOccurrenceState (sees : Sees log snapshot generation) (allowed : stages stage)
    (planned : Plans snapshot observation stage edges journal) :
    Meets StoreRely (fun committed log' =>
      Exposing observation stages log (exposedEdges stage edges committed.status) log' ∧
      (committed.status.committed = true →
        Sees log' { snapshot with occurrenceState := journal } committed.generation))
      (AtomicScheduleStore.saveOccurrenceState journal snapshot.revision generation) log := by
  obtain ⟨seen, last, loaded, rfl, rfl⟩ := sees
  intro before reply after rely
  constructor
  · exact (Exposure.commit last loaded allowed planned rfl rfl).exposing
  · intro committed
    have succeeds := rely.evolved seen (List.mem_of_getLast? last) loaded
    cases rely.commitOutcome with
    | refused failed =>
        rw [failed] at committed
        cases committed
    | unconfirmed failed =>
        rw [failed] at committed
        cases committed
    | stored _ reported fits =>
        refine ⟨_, List.getLast?_concat, rfl, ?_, reported.symm⟩
        rw [← succeeds.record fits.generation.symm]
        rfl
    | unchanged _ reported isLoaded revision held =>
        refine ⟨_, List.getLast?_concat, isLoaded, ?_, reported.symm⟩
        rw [← held]
        exact succeeds.schedule revision.symm

end

/-- A schedule save that carries no journal, or replaces a schedule that is stored. -/
theorem meets_save (observation : RuntimeTickObservation) (stages : CommitStage → Prop)
    {log : StoreLog}
    {snapshot : ScheduleSnapshot} {expectedRevision : UInt64}
    (schedule : snapshot.occurrenceState = {} ∨ ∃ seen ∈ log, seen.after.status = .loaded) :
    Meets StoreRely (fun _ log' => Exposing observation stages log [] log')
      (AtomicScheduleStore.save snapshot expectedRevision) log := by
  intro before reply after rely
  refine (Exposure.silent (by simp) ?_).exposing
  intro saved revision same
  cases same
  exact schedule

/-! ### The committed evaluation -/

/-- The stages of the committed evaluation. -/
def evaluatorStage (stage : CommitStage) : Prop := stage = .active ∨ stage = .due

theorem evaluatorStage.tick {stage : CommitStage} (h : evaluatorStage stage) :
    stage.isControl = false := by
  rcases h with rfl | rfl
  · rfl
  · rfl

/-- A transition of the evaluator: nothing to persist and nothing exposed, or a
planned journal. -/
def EvaluatorPlans (snapshot : ScheduleSnapshot) (observation : RuntimeTickObservation)
    (stages : CommitStage → Prop) (done : EvaluationResult × PersistentAlarmState) : Prop :=
  (done.1.persistBeforeEffects = false ∧ done.1.edges = [] ∧
    done.2 = snapshot.occurrenceState) ∨
  (done.1.persistBeforeEffects = true ∧ done.1.status ≠ .invalidTime ∧
    ∃ stage : CommitStage, stages stage ∧ stage.forwards = false ∧
      Plans snapshot observation stage done.1.edges done.2)

theorem evaluateDue_usable {alarm : AlarmDefinition} {state : PersistentAlarmState}
    {wallUtcSeconds monotonicSeconds : Int64} {timeValid : Bool}
    (persists : (evaluateDue alarm state wallUtcSeconds monotonicSeconds
      timeValid).1.persistBeforeEffects = true) :
    (evaluateDue alarm state wallUtcSeconds monotonicSeconds timeValid).1.status ≠
      .invalidTime := by
  revert persists
  simp only [evaluateDue]
  repeat' split
  all_goals simp [invalidTimeResult]

theorem activeTransition_usable {state : PersistentAlarmState}
    {wallUtcSeconds monotonicSeconds : Int64} {bootId : Text}
    (persists : (activeTransition state wallUtcSeconds monotonicSeconds
      bootId).1.persistBeforeEffects = true) :
    (activeTransition state wallUtcSeconds monotonicSeconds bootId).1.status ≠ .invalidTime := by
  revert persists
  simp only [activeTransition, advanceActive, recoverAfterReboot]
  repeat' split
  all_goals simp [invalidTimeResult]

theorem evaluateDue_plans {snapshot : ScheduleSnapshot} {observation : RuntimeTickObservation}
    {alarm : StoredAlarmDefinition} (mem : alarm ∈ snapshot.alarms) :
    EvaluatorPlans snapshot observation evaluatorStage (evaluateDue alarm.definition snapshot.occurrenceState
      observation.wallUtcSeconds observation.monotonicSeconds true) := by
  rcases evaluateDue_transition mem snapshot.occurrenceState observation with nothing |
    ⟨persists, -⟩
  · exact .inl nothing
  · exact .inr ⟨persists, evaluateDue_usable persists, .due, .inr rfl, rfl, .due mem rfl persists⟩

theorem activeTransition_plans (snapshot : ScheduleSnapshot)
    (observation : RuntimeTickObservation) :
    EvaluatorPlans snapshot observation evaluatorStage (activeTransition snapshot.occurrenceState
      observation.wallUtcSeconds observation.monotonicSeconds observation.bootId) := by
  rcases activeTransition_transition snapshot.alarms snapshot.occurrenceState observation with
    nothing | ⟨persists, -⟩
  · exact .inl nothing
  · exact .inr ⟨persists, activeTransition_usable persists, .active, .inl rfl, rfl, .active rfl persists⟩

/-- What a stage of the evaluator leaves: its edges are exposed by its calls, and
if the pass goes on, its last call left the journal the next stage works on. -/
def EvaluatorProgress (observation : RuntimeTickObservation) (stages : CommitStage → Prop)
    (log : StoreLog) (snapshot : ScheduleSnapshot) (before : CommittedScheduleEvaluation) :
    Except CommittedScheduleEvaluation CommittedScheduleEvaluation → StoreLog → Prop
  | .error after, log' => ∃ edges, Exposing observation stages log edges log' ∧
      after.edges = before.edges ++ edges
  | .ok after, log' => ∃ edges, Exposing observation stages log edges log' ∧
      after.edges = before.edges ++ edges ∧ after.scheduleRevision = before.scheduleRevision ∧
      Sees log' snapshot after.generation

section

variable {observation : RuntimeTickObservation} {stages : CommitStage → Prop} {log : StoreLog}
  {snapshot : ScheduleSnapshot} {evaluation : CommittedScheduleEvaluation} {alarm : CommittedAlarmEvaluation}

theorem EvaluationResult.edges_of_silent {result : EvaluationResult}
    (start : result.startAlert = false) (stop : result.stopAlert = false) : result.edges = [] := by
  simp [EvaluationResult.edges, alertEdges, start, stop]

theorem StoreStatus.committed_cases {status : StoreStatus} (h : status.committed = true) :
    status = .stored ∨ status = .unchanged := by
  cases status <;> first | exact .inl rfl | exact .inr rfl | cases h

/-- What a commit of the evaluator leaves. -/
def TransitionCommitted (observation : RuntimeTickObservation) (stages : CommitStage → Prop)
    (log : StoreLog) (snapshot : ScheduleSnapshot) (before : CommittedScheduleEvaluation) :
    Except CommittedScheduleEvaluation (CommittedScheduleEvaluation × CommittedAlarmEvaluation) →
      StoreLog → Prop
  | .error after, log' => ∃ edges, Exposing observation stages log edges log' ∧
      after.edges = before.edges ++ edges
  | .ok (after, alarm), log' => Exposing observation stages log alarm.result.edges log' ∧
      after.edges = before.edges ∧ after.scheduleRevision = before.scheduleRevision ∧
      Sees log' snapshot after.generation

theorem meets_commitOccurrenceTransition (snapshot : ScheduleSnapshot)
    {done : EvaluationResult × PersistentAlarmState}
    (sees : Sees log snapshot evaluation.generation)
    (revision : evaluation.scheduleRevision = snapshot.revision)
    (plans : EvaluatorPlans snapshot observation stages done) (result : alarm.result = done.1) :
    Meets StoreRely
      (TransitionCommitted observation stages log { snapshot with occurrenceState := done.2 } evaluation)
      (commitOccurrenceTransition done.2 evaluation alarm) log := by
  unfold commitOccurrenceTransition
  rcases plans with ⟨idle, silent, same⟩ | ⟨persists, -, stage, allowed, drops, planned⟩
  · rw [if_pos (by rw [result, idle]; rfl)]
    refine ⟨?_, rfl, rfl, ?_⟩
    · rw [result, silent]
      exact .refl
    · rwa [same]
  · rw [if_neg (by rw [result, persists]; simp), revision]
    refine (meets_saveOccurrenceState sees allowed planned).bind ?_
    rintro committed log' ⟨exposing, landed⟩
    by_cases confirmed : committed.status.committed = true
    · simp only [confirmed, Bool.not_true, Bool.false_eq_true, if_false]
      have sees' := landed confirmed
      rcases StoreStatus.committed_cases confirmed with stored | unchanged
      · rw [if_neg (by simp [stored])]
        refine ⟨?_, rfl, revision.symm, sees'⟩
        simp only [stored, exposedEdges] at exposing
        rw [result]
        exact exposing
      · rw [if_pos unchanged]
        refine ⟨?_, rfl, revision.symm, sees'⟩
        rw [EvaluationResult.edges_of_silent rfl rfl]
        simpa [unchanged, exposedEdges, drops] using exposing
    · have failed : committed.status.committed = false := by simpa using confirmed
      simp only [failed, Bool.not_false, if_true]
      rw [exposedEdges_of_failed failed] at exposing
      refine ⟨[], exposing, ?_⟩
      exact CommittedScheduleEvaluation.edges_push
        { evaluation with generation := committed.generation } _

theorem meets_settleEvaluation (snapshot : ScheduleSnapshot)
    {done : EvaluationResult × PersistentAlarmState}
    (sees : Sees log snapshot evaluation.generation)
    (revision : evaluation.scheduleRevision = snapshot.revision)
    (plans : EvaluatorPlans snapshot observation stages done) (result : alarm.result = done.1) :
    Meets StoreRely
      (EvaluatorProgress observation stages log { snapshot with occurrenceState := done.2 } evaluation)
      (settleEvaluation done.2 evaluation alarm) log := by
  unfold settleEvaluation
  split
  · rename_i invalid
    have silent : alarm.result.edges = [] := by
      rcases plans with ⟨-, silent, -⟩ | ⟨-, usable, -⟩
      · rw [result, silent]
      · exact absurd (result ▸ invalid) usable
    refine ⟨[], .refl, ?_⟩
    rw [← silent]
    exact evaluation.edges_push alarm
  · refine (meets_commitOccurrenceTransition snapshot sees revision plans result).bind ?_
    rintro (after | ⟨after, alarm⟩) log' progress
    · exact progress
    · obtain ⟨exposing, edges, kept, sees'⟩ := progress
      refine ⟨_, exposing, ?_, kept, sees'⟩
      rw [after.edges_push, edges]

/-- The pass over the schedule. -/
theorem meets_evaluateAlarms (snapshot : ScheduleSnapshot) {alarms : List StoredAlarmDefinition}
    {state : PersistentAlarmState}
    (sees : Sees log { snapshot with occurrenceState := state } evaluation.generation)
    (revision : evaluation.scheduleRevision = snapshot.revision)
    (sub : ∀ alarm ∈ alarms, alarm ∈ snapshot.alarms) :
    Meets StoreRely (fun final log' => ∃ edges, Exposing observation evaluatorStage log edges log' ∧
      final.edges = evaluation.edges ++ edges)
      (evaluateAlarms observation.wallUtcSeconds observation.monotonicSeconds alarms state
        evaluation) log := by
  induction alarms generalizing log state evaluation with
  | nil => exact ⟨[], .refl, by rw [List.append_nil]⟩
  | cons alarm rest ih =>
      have plans : EvaluatorPlans { snapshot with occurrenceState := state } observation
          evaluatorStage
          (evaluateDue alarm.definition state observation.wallUtcSeconds
            observation.monotonicSeconds true) :=
        evaluateDue_plans (sub alarm List.mem_cons_self)
      refine (meets_settleEvaluation _ sees revision plans rfl).bind ?_
      rintro (after | after) log' progress
      · exact progress
      · obtain ⟨edges, exposing, reported, kept, sees'⟩ := progress
        refine (ih sees' (kept.trans revision)
          fun other later => sub other (List.mem_cons_of_mem _ later)).post ?_
        rintro final final' ⟨more, exposing', reported'⟩
        exact ⟨edges ++ more, exposing.trans exposing', by
          rw [reported', reported, List.append_assoc]⟩

/-- The committed evaluation exposes the edges of its own stored transitions. -/
theorem meets_evaluateCommittedSchedule (timeValid : Bool) :
    Meets StoreRely (fun final log' => Exposing observation evaluatorStage log final.edges log')
      (evaluateCommittedSchedule observation.wallUtcSeconds observation.monotonicSeconds timeValid
        observation.bootId) log := by
  unfold evaluateCommittedSchedule
  split
  · exact .refl
  refine (meets_load observation evaluatorStage log).bind ?_
  rintro loaded log' ⟨exposing, shows⟩
  split
  · exact exposing
  rename_i isLoaded
  obtain ⟨sees, valid⟩ := shows (not_not.mp isLoaded)
  have sub : ∀ alarm ∈ sortAlarms loaded.snapshot.alarms, alarm ∈ loaded.snapshot.alarms :=
    fun alarm => mem_sortAlarms.mp
  dsimp only
  split
  · refine (meets_evaluateAlarms loaded.snapshot sees rfl sub).post ?_
    rintro final final' ⟨edges, exposing', reported⟩
    rw [reported]
    exact exposing.trans exposing'
  · rename_i active held
    refine (meets_settleEvaluation loaded.snapshot sees rfl
      (activeTransition_plans _ _) rfl).bind ?_
    rintro (after | after) log'' progress
    · obtain ⟨edges, exposing', reported⟩ := progress
      show Exposing observation evaluatorStage log after.edges log''
      rw [reported]
      exact exposing.trans exposing'
    · obtain ⟨edges, exposing', reported, kept, sees'⟩ := progress
      refine (meets_evaluateAlarms loaded.snapshot sees' kept sub).post ?_
      rintro final final' ⟨more, exposing'', reported'⟩
      rw [reported', reported]
      exact exposing.trans (exposing'.trans exposing'')

end

/-! ### Reconciliation -/

theorem reconciliationEffect_edges (recovery : InvalidTimeRecoveryResult)
    (crossed : RecoveredOccurrence) :
    (reconciliationEffect recovery crossed).edges =
      alertEdges crossed.occurrenceId
        (recovery.startAlert && crossed.occurrenceId == recovery.ringingOccurrenceId) false := by
  unfold reconciliationEffect RuntimeTickEffect.edges
  split
  · rename_i rings
    simp [rings]
  · rename_i silent
    simp only [Bool.not_eq_true] at silent
    simp [silent]

/-- The effects of a reconciled batch carry the start edge of the newest
occurrence, and nothing else. -/
theorem reconciledRecords_edges {older : List StoredAlarmDefinition}
    {newest : StoredAlarmDefinition} {newestRings : Bool} {lateness : Int64}
    {recovery : InvalidTimeRecoveryResult} (distinct : newest.id ∉ older.map (·.id))
    (start : recovery.startAlert = newestRings)
    (ringing : recovery.ringingOccurrenceId =
      if newestRings then makeOccurrenceId newest.definition else []) :
    ((reconciledRecords older newest newestRings lateness).map
      (reconciliationEffect recovery)).flatMap (·.edges) = recovery.edges := by
  have others : (older.map missedRecord).flatMap
      (fun crossed => (reconciliationEffect recovery crossed).edges) = [] := by
    rw [List.flatMap_eq_nil_iff]
    intro crossed mem
    obtain ⟨alarm, older, rfl⟩ := List.mem_map.mp mem
    rw [reconciliationEffect_edges]
    cases newestRings with
    | false => simp [start, alertEdges]
    | true =>
        have differ : makeOccurrenceId alarm.definition ≠ makeOccurrenceId newest.definition := by
          intro same
          have id : alarm.id = newest.id := (makeOccurrenceId_inj same).1
          exact distinct (id ▸ List.mem_map_of_mem older)
        simp [ringing, missedRecord, alertEdges, differ]
  rw [reconciledRecords, List.flatMap_map, List.flatMap_append, others, List.nil_append,
    List.flatMap_singleton, reconciliationEffect_edges]
  cases newestRings with
  | false => simp [start, InvalidTimeRecoveryResult.edges, alertEdges]
  | true => simp [start, ringing, InvalidTimeRecoveryResult.edges, missedRecord]

/-- The newest candidate shares its alarm with none of the older ones. -/
theorem crossedCandidates_newest {snapshot : ScheduleSnapshot} {wallUtcSeconds : Int64}
    {newest : StoredAlarmDefinition} (ids : (snapshot.alarms.map (·.id)).Nodup)
    (last : (crossedCandidates snapshot wallUtcSeconds).getLast? = some newest) :
    newest.id ∉ ((crossedCandidates snapshot wallUtcSeconds).dropLast).map (·.id) := by
  have whole : crossedCandidates snapshot wallUtcSeconds =
      (crossedCandidates snapshot wallUtcSeconds).dropLast ++ [newest] := by
    rw [List.dropLast_append_getLast?]
    exact last
  have distinct : ((crossedCandidates snapshot wallUtcSeconds).map (·.id)).Nodup :=
    ((sortAlarms_perm _).map _).nodup_iff.mpr (ids.sublist (List.filter_sublist.map _))
  rw [whole, List.map_append, List.nodup_append] at distinct
  intro older
  exact distinct.2.2 _ older _ (by simp) rfl

/-- The edges a tick reports for a reconciliation. -/
def InvalidTimeRecoveryResult.effectEdges (recovery : InvalidTimeRecoveryResult) :
    List AlertEdge :=
  (if recovery.status = .reconciled then recovery.crossed.map (reconciliationEffect recovery)
    else []).flatMap (·.edges)

section

variable {observation : RuntimeTickObservation} {log : StoreLog}

theorem meets_reconcileAfterTimeValid (timeValid : Bool) :
    Meets StoreRely (fun recovery log' => Exposing observation (· = .reconcile) log recovery.edges log' ∧
      recovery.effectEdges = recovery.edges)
      (reconcileAfterTimeValid observation.wallUtcSeconds observation.monotonicSeconds timeValid)
      log := by
  unfold reconcileAfterTimeValid
  split
  · exact ⟨.refl, rfl⟩
  refine (meets_load observation (· = .reconcile) log).bind ?_
  rintro loaded log' ⟨exposing, shows⟩
  split
  · rename_i status
    refine ⟨exposing, ?_⟩
    have : unloadedRecoveryStatus loaded.status ≠ .reconciled := by
      unfold unloadedRecoveryStatus
      repeat' split
      all_goals simp
    simp [InvalidTimeRecoveryResult.effectEdges, InvalidTimeRecoveryResult.edges, alertEdges, this]
  rename_i isLoaded
  obtain ⟨sees, valid⟩ := shows (not_not.mp isLoaded)
  have ids := (validateSnapshot_iff.mp valid).1.ids
  dsimp only
  split
  · exact ⟨exposing, rfl⟩
  rename_i idle
  split
  · exact ⟨exposing, rfl⟩
  rename_i newest last
  split
  · exact ⟨exposing, rfl⟩
  rename_i lateness elapsed
  split
  · exact ⟨exposing, rfl⟩
  rename_i journal accepted
  have idle : loaded.snapshot.occurrenceState.active = none := by simpa using idle
  have planned : Plans loaded.snapshot observation .reconcile _ journal :=
    .reconcile idle last elapsed accepted
  have distinct : newest.id ∉
      ((crossedCandidates loaded.snapshot observation.wallUtcSeconds).dropLast).map (·.id) :=
    crossedCandidates_newest ids last
  refine (@meets_saveOccurrenceState _ (· = .reconcile) _ _ _ _ _ _ sees rfl planned).bind ?_
  rintro committed log'' ⟨exposing', -⟩
  by_cases confirmed : committed.status.committed = true
  · simp only [confirmed, Bool.not_true, Bool.false_eq_true, if_false]
    have exposed : exposedEdges .reconcile (alertEdges (makeOccurrenceId newest.definition)
        (lateness ≤ kLateGraceSeconds) false) committed.status =
        alertEdges (makeOccurrenceId newest.definition) (lateness ≤ kLateGraceSeconds) false := by
      rcases StoreStatus.committed_cases confirmed with status | status
      · rw [status]
        rfl
      · rw [status]
        rfl
    rw [exposed] at exposing'
    constructor
    · have whole := exposing.trans exposing'
      by_cases rings : lateness ≤ kLateGraceSeconds
      · simpa [InvalidTimeRecoveryResult.edges, rings] using whole
      · simpa [InvalidTimeRecoveryResult.edges, rings, alertEdges] using whole
    · rw [InvalidTimeRecoveryResult.effectEdges, if_pos rfl]
      exact reconciledRecords_edges distinct rfl (by simp)
  · have failed : committed.status.committed = false := by simpa using confirmed
    simp only [failed, Bool.not_false, if_true]
    rw [exposedEdges_of_failed failed] at exposing'
    refine ⟨exposing.trans exposing', ?_⟩
    rw [InvalidTimeRecoveryResult.effectEdges, if_neg (by split <;> simp)]
    rfl

end

/-! ### The runtime tick -/

theorem settleTransition_booted (state : PersistentAlarmState)
    (observation : RuntimeTickObservation) (bootPending : Bool) :
    settleTransition state (observation.booted bootPending) bootPending =
      settleTransition state observation bootPending := by
  cases bootPending <;> rfl

theorem booted_pending {observation : RuntimeTickObservation} {bootPending : Bool}
    (boot : bootPending = true → observation.bootId ≠ []) :
    (!(observation.booted bootPending).bootId.isEmpty) = bootPending := by
  cases bootPending with
  | false => rfl
  | true => simpa [RuntimeTickObservation.booted] using boot rfl

/-- A recovery with a usable time leaves only occurrences of this boot. -/
theorem recovered_settleTransition {state : PersistentAlarmState}
    {observation : RuntimeTickObservation}
    (usable : (settleTransition state observation true).1.status ≠ .invalidTime) :
    ((settleTransition state observation true).1.persistBeforeEffects = true →
      Recovered observation.bootId (settleTransition state observation true).2) ∧
    ((settleTransition state observation true).1.persistBeforeEffects = false →
      Recovered observation.bootId state) := by
  revert usable
  simp only [settleTransition, if_true]
  cases held : state.active with
  | none => simp [recoverAfterReboot, held, Recovered, LastRecovery]
  | some active =>
      simp only [recoverAfterReboot, held]
      split
      · rename_i same
        simpa [Recovered, LastRecovery, held] using same
      split
      · simp [invalidTimeResult]
      split
      · simp [Recovered, LastRecovery, reanchorActive, closeActive]
      · simp [Recovered, LastRecovery, reanchorActive]

/-- What settling leaves: nothing exposed and no evaluation when it ends the tick. -/
def SettleProgress (observation : RuntimeTickObservation) (bootPending : Bool) (log : StoreLog)
    (before : RuntimeTickResult) : Except RuntimeTickResult RuntimeTickResult → StoreLog → Prop
  | .error after, log' => Exposing (observation.booted bootPending) (· = .settle) log [] log' ∧
      after.edges = before.edges ∧ after.status ≠ .evaluated
  | .ok after, log' => ∃ edges, Exposing (observation.booted bootPending) (· = .settle) log edges log' ∧
      after.edges = before.edges ++ edges ∧
      ∃ snapshot generation, Sees log' snapshot generation ∧
        (bootPending = true → Recovered observation.bootId snapshot.occurrenceState)

section

variable {observation : RuntimeTickObservation} {log : StoreLog} {bootPending : Bool}
  {result : RuntimeTickResult}

/-- A settled occurrence is reported with its own edges, behind the others. -/
theorem edges_settled (effects : List RuntimeTickEffect) (alarmId : Text)
    (settled : EvaluationResult) :
    (effects ++ [settleEffect alarmId settled]).flatMap (·.edges) =
      effects.flatMap (·.edges) ++ settled.edges := by
  rw [List.flatMap_append, List.flatMap_singleton]
  rfl

theorem meets_settleActiveOccurrence {loaded : LoadResult}
    (boot : bootPending = true → observation.bootId ≠ [])
    (sees : Sees log loaded.snapshot loaded.generation) :
    Meets StoreRely (SettleProgress observation bootPending log result)
      (settleActiveOccurrence loaded observation bootPending result) log := by
  unfold settleActiveOccurrence
  split
  · rename_i idle
    refine ⟨[], .refl, by rw [List.append_nil], _, _, sees, fun _ active held => ?_⟩
    rw [idle] at held
    cases held
  rename_i active held
  dsimp only
  split
  · exact ⟨.refl, rfl, by simp⟩
  rename_i usable
  have transition := @settleTransition_transition loaded.snapshot.alarms
    loaded.snapshot.occurrenceState observation bootPending boot
  split
  · rename_i persists
    have planned : Plans loaded.snapshot (observation.booted bootPending) .settle _
        (settleTransition loaded.snapshot.occurrenceState observation bootPending).2 :=
      .settle (by rw [booted_pending boot, settleTransition_booted]) persists
    refine (@meets_saveOccurrenceState _ (· = .settle) _ _ _ _ _ _ sees rfl planned).bind ?_
    rintro committed log' ⟨exposing, landed⟩
    by_cases confirmed : committed.status.committed = true
    · simp only [confirmed, Bool.not_true, Bool.false_eq_true, if_false]
      have exposed : exposedEdges .settle (settleTransition loaded.snapshot.occurrenceState
          observation bootPending).1.edges committed.status =
          (settleTransition loaded.snapshot.occurrenceState observation bootPending).1.edges := by
        rcases StoreStatus.committed_cases confirmed with status | status
        · rw [status]
          rfl
        · rw [status]
          rfl
      rw [exposed] at exposing
      refine ⟨_, exposing, ?_, _, _, landed confirmed, ?_⟩
      · exact edges_settled result.effects active.alarmId _
      · rintro rfl
        exact (recovered_settleTransition usable).1 persists
    · have failed : committed.status.committed = false := by simpa using confirmed
      simp only [failed, Bool.not_false, if_true]
      rw [exposedEdges_of_failed failed] at exposing
      exact ⟨exposing, rfl, by split <;> simp⟩
  · rename_i idle
    have idle : (settleTransition loaded.snapshot.occurrenceState observation
        bootPending).1.persistBeforeEffects = false := by simpa using idle
    have silent : (settleTransition loaded.snapshot.occurrenceState observation
        bootPending).1.edges = [] := by
      rcases transition with ⟨-, silent⟩ | ⟨persists, -⟩
      · exact silent
      · rw [idle] at persists
        cases persists
    refine ⟨[], .refl, ?_, _, _, sees, ?_⟩
    · have reported := edges_settled result.effects active.alarmId
        (settleTransition loaded.snapshot.occurrenceState observation bootPending).1
      rw [silent] at reported
      exact reported
    · rintro rfl
      exact (recovered_settleTransition usable).2 idle

theorem meets_settleLoaded (boot : bootPending = true → observation.bootId ≠ []) :
    Meets StoreRely (SettleProgress observation bootPending log result)
      (settleLoaded observation bootPending result) log := by
  unfold settleLoaded
  refine (meets_load (observation.booted bootPending) (· = .settle) log).bind ?_
  rintro loaded log' ⟨exposing, shows⟩
  split
  · refine ⟨exposing, rfl, ?_⟩
    unfold unloadedTickStatus
    repeat' split
    all_goals simp
  rename_i isLoaded
  obtain ⟨sees, -⟩ := shows (not_not.mp isLoaded)
  refine (meets_settleActiveOccurrence boot sees).post ?_
  rintro (after | after) log'' progress
  · exact ⟨exposing.trans progress.1, progress.2⟩
  · obtain ⟨edges, exposing', reported, rest⟩ := progress
    exact ⟨edges, exposing.trans exposing', reported, rest⟩

/-- The stages behind settling: reconciliation while it is owed, else evaluation. -/
def evaluationStage (latched : Bool) (stage : CommitStage) : Prop :=
  if latched then stage = .reconcile else evaluatorStage stage

theorem evaluationStage.tick {latched : Bool} {stage : CommitStage}
    (h : evaluationStage latched stage) : stage.isControl = false := by
  unfold evaluationStage at h
  split at h
  · obtain rfl := h
    rfl
  · exact evaluatorStage.tick h

/-- How a tick goes: it ends before anything is settled, or it settles and goes on
without a boot. -/
inductive TickProgress (state : RuntimeCoordinatorState) (observation : RuntimeTickObservation)
    (log : StoreLog) : RuntimeTickResult × RuntimeCoordinatorState → StoreLog → Prop where
  | ended {done : RuntimeTickResult × RuntimeCoordinatorState} {log' : StoreLog}
      (exposing : Exposing (observation.booted (isBootPending state observation))
        (· = .settle) log [] log')
      (silent : done.1.edges = []) (unfinished : done.1.status ≠ .evaluated)
      (kept : done.2.lastHandledBootId = state.lastHandledBootId) :
      TickProgress state observation log done log'
  | settled {done : RuntimeTickResult × RuntimeCoordinatorState} {middle log' : StoreLog}
      {first second : List AlertEdge}
      (settling : Exposing (observation.booted (isBootPending state observation))
        (· = .settle) log first middle)
      (evaluating : Exposing (observation.booted false)
        (evaluationStage state.reconciliationPending) middle second log')
      (edges : done.1.edges = first ++ second)
      (handled : isBootPending state observation = true →
        done.2.lastHandledBootId = observation.bootId ∧
          ∃ snapshot generation, Sees middle snapshot generation ∧
            Recovered observation.bootId snapshot.occurrenceState)
      (kept : isBootPending state observation = false →
        done.2.lastHandledBootId = state.lastHandledBootId) :
      TickProgress state observation log done log'

theorem bootId_of_pending {state : RuntimeCoordinatorState}
    (h : isBootPending state observation = true) : observation.bootId ≠ [] := by
  simp only [isBootPending, Bool.and_eq_true] at h
  simpa using h.1

theorem meets_evaluationTick :
    Meets StoreRely (fun after log' => ∃ edges, Exposing (observation.booted false) evaluatorStage log edges log' ∧
      after.edges = result.edges ++ edges) (evaluationTick observation result) log := by
  refine (@meets_evaluateCommittedSchedule (observation.booted false) log true).bind ?_
  intro evaluation log' exposing
  refine ⟨_, exposing, ?_⟩
  rw [RuntimeTickResult.edges, List.flatMap_append, List.flatMap_map]
  rfl

theorem handleBoot_pending {state : RuntimeCoordinatorState}
    (h : isBootPending state observation = true) :
    (handleBoot state observation (isBootPending state observation)).lastHandledBootId =
      observation.bootId := by
  rw [handleBoot, if_pos h]

theorem handleBoot_handled {state : RuntimeCoordinatorState}
    (h : isBootPending state observation = false) :
    (handleBoot state observation (isBootPending state observation)).lastHandledBootId =
      state.lastHandledBootId := by
  rw [handleBoot, if_neg (by simp [h])]

/-- The tick while a reconciliation is owed. -/
theorem meets_latchedTick {state : RuntimeCoordinatorState}
    (latched : state.reconciliationPending = true) :
    Meets StoreRely (TickProgress state observation log) (latchedTick state observation) log := by
  unfold latchedTick
  refine (meets_settleLoaded bootId_of_pending).bind ?_
  rintro (after | after) middle progress
  · obtain ⟨exposing, silent, unfinished⟩ := progress
    exact .ended exposing silent unfinished rfl
  obtain ⟨edges, settling, reported, snapshot, generation, sees, recovered⟩ := progress
  refine (@meets_reconcileAfterTimeValid (observation.booted false) middle true).bind ?_
  rintro recovery log' ⟨evaluating, effects⟩
  have lastHandled : (if reconciliationClearsLatch recovery then
      { handleBoot state observation (isBootPending state observation) with
        reconciliationPending := false }
      else handleBoot state observation (isBootPending state observation)).lastHandledBootId =
      (handleBoot state observation (isBootPending state observation)).lastHandledBootId := by
    split <;> rfl
  have stages : (· = .reconcile) = evaluationStage state.reconciliationPending := by
    rw [latched]
    rfl
  rw [stages] at evaluating
  refine .settled settling evaluating ?_ ?_ ?_
  · rw [← effects]
    simp only [applyReconciliationOutcome, RuntimeTickResult.edges, List.flatMap_append]
    rw [← RuntimeTickResult.edges, reported]
    rfl
  · intro pending
    exact ⟨lastHandled.trans (handleBoot_pending pending), snapshot, generation, sees,
      recovered pending⟩
  · intro handled
    exact lastHandled.trans (handleBoot_handled handled)

theorem meets_runRuntimeTick (state : RuntimeCoordinatorState)
    (observation : RuntimeTickObservation) (log : StoreLog) :
    Meets StoreRely (TickProgress state observation log) (runRuntimeTick state observation)
      log := by
  unfold runRuntimeTick
  split
  · exact .ended .refl rfl (by simp) rfl
  split
  · rename_i latched
    exact meets_latchedTick latched
  rename_i unlatched
  have stages : evaluatorStage = evaluationStage state.reconciliationPending := by
    rw [show state.reconciliationPending = false by simpa using unlatched]
    rfl
  split
  · rename_i pending
    refine (@meets_settleLoaded observation log true {} fun _ => bootId_of_pending pending).bind ?_
    rintro (after | after) middle progress
    · obtain ⟨exposing, silent, unfinished⟩ := progress
      exact .ended (by rwa [pending]) silent unfinished rfl
    obtain ⟨edges, settling, reported, snapshot, generation, sees, recovered⟩ := progress
    refine (@meets_evaluationTick observation middle after).bind ?_
    rintro final log' ⟨more, evaluating, reported'⟩
    rw [stages] at evaluating
    refine .settled (by rwa [pending]) evaluating (reported'.trans (by rw [reported]; rfl)) ?_ ?_
    · intro _
      exact ⟨rfl, snapshot, generation, sees, recovered rfl⟩
    · intro handled
      rw [pending] at handled
      cases handled
  · rename_i handled
    refine meets_evaluationTick.bind ?_
    rintro final log' ⟨edges, evaluating, reported⟩
    rw [stages] at evaluating
    refine .settled .refl evaluating reported ?_ fun _ => rfl
    intro pending
    exact absurd pending handled

end

/-! ### Disabling an alarm -/

/-- What phase one leaves. -/
def DismissProgress (observation : RuntimeTickObservation) (log : StoreLog) :
    Except CommittedAlarmDisableResult CommittedAlarmDisableResult → StoreLog → Prop
  | .error after, log' => Exposing observation (· = .disable) log after.edges log'
  | .ok after, log' => Exposing observation (· = .disable) log after.edges log' ∧
      ∃ seen ∈ log', seen.after.status = .loaded

section

variable {observation : RuntimeTickObservation} {log : StoreLog} {alarmId : Text}
  {result : CommittedAlarmDisableResult} {snapshot : ScheduleSnapshot} {generation : UInt64}

theorem Sees.loaded (sees : Sees log snapshot generation) :
    ∃ seen ∈ log, seen.after.status = .loaded := by
  obtain ⟨seen, last, loaded, -⟩ := sees
  exact ⟨seen, List.mem_of_getLast? last, loaded⟩

theorem CommittedAlarmDisableResult.edges_of_silent (h : result.stopAlert = false) :
    result.edges = [] := by
  simp [CommittedAlarmDisableResult.edges, alertEdges, h]

theorem dismissActive_held {state : PersistentAlarmState} {active : ActiveOccurrence}
    (held : state.active = some active) (alarmDisabled : Bool) :
    dismissActive state active.occurrenceId alarmDisabled =
      ({ status := .dismissed, occurrenceId := active.occurrenceId, stopAlert := true
         persistBeforeEffects := true },
        closeActive state active (if alarmDisabled then .alarmDisabled else .dismissed)) := by
  simp [dismissActive, held]

theorem meets_dismissForDisable {loaded : LoadResult}
    (sees : Sees log loaded.snapshot loaded.generation) (silent : result.stopAlert = false) :
    Meets StoreRely (DismissProgress observation log)
      (dismissForDisable alarmId loaded result) log := by
  unfold dismissForDisable
  have noEdges := CommittedAlarmDisableResult.edges_of_silent silent
  split
  · exact ⟨by rw [noEdges]; exact .refl, sees.loaded⟩
  rename_i active held
  split
  · exact ⟨by rw [noEdges]; exact .refl, sees.loaded⟩
  dsimp only
  rw [dismissActive_held held]
  simp only [Bool.not_true, Bool.or_self, Bool.false_eq_true, if_false]
  have step := dismissActive_transition loaded.snapshot.occurrenceState active.occurrenceId true
  rw [dismissActive_held held] at step
  have planned : Plans loaded.snapshot observation .disable _ _ := .control rfl step rfl
  refine (@meets_saveOccurrenceState _ (· = .disable) _ _ _ _ _ _ sees rfl planned).bind ?_
  rintro committed log' ⟨exposing, landed⟩
  by_cases confirmed : committed.status.committed = true
  · simp only [confirmed, Bool.not_true, Bool.false_eq_true, if_false]
    refine ⟨?_, (landed confirmed).loaded⟩
    rcases StoreStatus.committed_cases confirmed with status | status
    · rw [status] at exposing
      exact exposing
    · rw [status] at exposing
      exact exposing
  · have failed : committed.status.committed = false := by simpa using confirmed
    simp only [failed, Bool.not_false, if_true]
    rw [exposedEdges_of_failed failed] at exposing
    exact exposing

theorem meets_saveDisabled (observation : RuntimeTickObservation) {loaded : LoadResult}
    {enabled : Bool}
    (seen : ∃ seen ∈ log, seen.after.status = .loaded) :
    Meets StoreRely (fun after log' => after.edges = result.edges ∧
      Exposing observation (· = .disable) log [] log') (saveDisabled alarmId loaded enabled result) log := by
  unfold saveDisabled
  split
  · exact ⟨rfl, .refl⟩
  dsimp only
  split
  · exact ⟨rfl, .refl⟩
  refine (meets_save observation (· = .disable) (.inr seen)).bind ?_
  intro committed log' exposing
  split
  · exact ⟨rfl, exposing⟩
  · exact ⟨rfl, exposing⟩

theorem meets_disableCommittedAlarm (alarmId : Text) (observation : RuntimeTickObservation)
    (log : StoreLog) :
    Meets StoreRely (fun final log' => Exposing observation (· = .disable) log final.edges log')
      (disableCommittedAlarm alarmId) log := by
  unfold disableCommittedAlarm
  refine (meets_load observation (· = .disable) log).bind ?_
  rintro loaded log' ⟨exposing, shows⟩
  split
  · exact exposing
  rename_i isLoaded
  obtain ⟨sees, -⟩ := shows (not_not.mp isLoaded)
  dsimp only
  split
  · exact exposing
  refine (@meets_dismissForDisable observation log' alarmId _ loaded sees rfl).bind ?_
  rintro (after | after) middle progress
  · exact exposing.trans progress
  · obtain ⟨exposing', seen⟩ := progress
    refine (meets_saveDisabled observation seen).post ?_
    rintro final log'' ⟨edges, exposing''⟩
    rw [edges]
    have whole := exposing.trans (exposing'.trans exposing'')
    rwa [List.append_nil] at whole

end

end DawnDock
