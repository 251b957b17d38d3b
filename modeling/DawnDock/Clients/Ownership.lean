import DawnDock.Clients.Interleaving
import DawnDock.Journal.Closed

/-!
Who exposes the edge of a durable transition.

`durableEdges` reads the alert edges of a store operation off the journals around
it. A client that commits a planned journal exposes just those, unless the journal
was durable already: the evaluator then drops its edges, settling and reconciliation
expose them once more (`Repeats`).

* `one_edge_per_transition`: without such a commit every durable transition is
  exposed by one client.
* `reconciled_twice`: with one, both clients start the same alert.
-/

namespace DawnDock

open AtomicProgram

/-! ### The edges of a transition -/

/-- The alert edges of a transition of the journal. An occurrence that expired while
the power was off was not sounding. -/
def transitionEdges (before after : PersistentAlarmState) : List AlertEdge :=
  if after.active = before.active then []
  else
    match after.active, before.active with
    | some active, _ =>
        if active.snoozeDeadlineMonotonicSeconds = none then [.start active.occurrenceId]
        else [.stop active.occurrenceId]
    | none, some active =>
        if after.terminal.getLast?.any (·.reason = .prolongedPowerOff) then []
        else [.stop active.occurrenceId]
    | none, none => []

section

variable {alarms : List StoredAlarmDefinition} {observation : RuntimeTickObservation}
  {snapshot : ScheduleSnapshot} {stage : CommitStage}
  {state before after final journal : PersistentAlarmState} {edges : List AlertEdge}
  {active : ActiveOccurrence}

theorem transitionEdges_kept (same : after.active = before.active) :
    transitionEdges before after = [] := if_pos same

theorem transitionEdges_rings (ringing : active.snoozeDeadlineMonotonicSeconds = none)
    (changed : before.active ≠ some active) :
    transitionEdges before { after with active := some active } =
      [.start active.occurrenceId] := by
  unfold transitionEdges
  rw [if_neg changed.symm]
  exact if_pos ringing

theorem transitionEdges_closeActive (held : state.active = some active)
    (fresh : active.occurrenceId ∉ state.terminal.map (·.occurrenceId)) (reason : TerminalReason) :
    transitionEdges state (closeActive state active reason) =
      if reason = .prolongedPowerOff then [] else [.stop active.occurrenceId] := by
  have last : (closeActive state active reason).terminal.getLast? =
      some ⟨active.occurrenceId, reason⟩ := appendTerminal_getLast? fresh
  unfold transitionEdges
  rw [held, show (closeActive state active reason).active = none from rfl, if_neg (by simp), last]
  simp

/-- A tick's step carries the edges of the transition it makes. -/
theorem TickStep.edges_of_transition (step : TickStep alarms observation state edges final)
    (fresh : ∀ a ∈ state.active, a.occurrenceId ∉ state.terminal.map (·.occurrenceId)) :
    transitionEdges state final = edges := by
  cases step with
  | admitted eligible =>
      exact transitionEdges_rings rfl (by simp [eligible.idle])
  | missed reason eligible => exact transitionEdges_kept (appendTerminal_active _ _)
  | timedOut held =>
      rw [transitionEdges_closeActive held (fresh _ held)]
      exact if_neg (by simp)
  | @rerung active deadline held _ snoozed =>
      refine transitionEdges_rings rfl fun same => ?_
      have deadline := congrArg ActiveOccurrence.snoozeDeadlineMonotonicSeconds
        (Option.some.inj (held.symm.trans same))
      rw [snoozed] at deadline
      cases deadline
  | @recovered active elapsed anchor held _ stale =>
      refine transitionEdges_rings rfl fun same => stale ?_
      exact congrArg ActiveOccurrence.lastRecoveryBootId (Option.some.inj (held.symm.trans same))
  | expired held =>
      rw [transitionEdges_closeActive held (fresh _ held)]
      exact if_pos rfl

/-- A batch rings its newest occurrence, or none. -/
theorem transitionEdges_reconcileJournal {older : List StoredAlarmDefinition}
    {newest : StoredAlarmDefinition} {newestRings : Bool} {wallUtcSeconds monotonicSeconds : Int64}
    (idle : state.active = none)
    (h : reconcileJournal state older newest newestRings wallUtcSeconds monotonicSeconds =
      some journal) :
    transitionEdges state journal =
      alertEdges (makeOccurrenceId newest.definition) newestRings false := by
  obtain ⟨middle, missed, -, rfl⟩ := reconcileJournal_eq_some h
  have kept := foldlM_journalMissed_active missed
  cases newestRings with
  | true => exact transitionEdges_rings rfl (by simp [idle])
  | false =>
      refine transitionEdges_kept ?_
      show (missOccurrence middle newest .invalidTime).active = state.active
      rw [missOccurrence, appendTerminal_active]
      exact kept

/-- A tick's commit carries the edges of the transition it makes durable. -/
theorem Plans.edges_of_transition (planned : Plans snapshot observation stage edges journal)
    (valid : validateSnapshot snapshot = true) (tick : stage.isControl = false) :
    transitionEdges snapshot.occurrenceState journal = edges := by
  obtain ⟨schedule, journaled⟩ := validateSnapshot_iff.mp valid
  rcases planned.cases schedule.ids with step | ⟨rfl, -, -⟩ | ⟨user, -⟩
  · exact step.edges_of_transition journaled.activeNotTerminal
  · cases planned with
    | reconcile idle last elapsed accepted => exact transitionEdges_reconcileJournal idle accepted
    | control user => cases user
  · rw [user] at tick
    cases tick

end

/-! ### The calls of one client -/

/-- The alert edges of the transition a store operation made durable. -/
def durableEdges (e : StoreEvent) : List AlertEdge :=
  transitionEdges e.before.journal e.after.journal

/-- The client hands in the journal that the one commit since its last call made
durable, with an edge. -/
def Repeats (log : StoreLog) (e : StoreEvent) : Prop :=
  ∃ seen ∈ log.getLast?,
    e.call = .saveOccurrenceState e.before.journal e.before.snapshot.revision
      seen.after.generation ∧
    seen.after.generation + 1 = e.before.generation ∧
    transitionEdges seen.after.journal e.before.journal ≠ []

/-- Every record a call left is valid. -/
def LeavesValid (log : StoreLog) : Prop :=
  ∀ e ∈ log, e.after.status = .loaded → validateSnapshot e.after.snapshot = true

section

variable {observation : RuntimeTickObservation} {stages : CommitStage → Prop}
  {log own : StoreLog} {e : StoreEvent} {edges : List AlertEdge}

/-- A call exposes the edges of its own transition, or of one it repeats. -/
theorem Exposure.owned (h : Exposure observation stages log e edges) (rely : StoreRely log e)
    (valid : LeavesValid log) (tick : ∀ stage, stages stage → stage.isControl = false) :
    edges.Sublist (durableEdges e) ∨
      (∃ stage, stages stage ∧ stage.forwards = true) ∧ Repeats log e := by
  cases h with
  | silent => exact .inl (List.nil_sublist _)
  | @commit seen stage edges journal status last loaded allowed planned call answer =>
      have seenMem := List.mem_of_getLast? last
      have succeeds := rely.evolved seen seenMem loaded
      have made := planned.edges_of_transition (valid seen seenMem loaded) (tick stage allowed)
      rw [← Register.journal_of_loaded loaded] at made
      obtain ⟨before, c, reply, after⟩ := e
      cases call
      have status : reply.status = status := Option.some.inj answer
      cases rely.commitOutcome with
      | refused failed =>
          rw [exposedEdges_of_failed (status ▸ failed)]
          exact .inl (List.nil_sublist _)
      | unconfirmed failed =>
          rw [exposedEdges_of_failed (status ▸ failed)]
          exact .inl (List.nil_sublist _)
      | stored stored _ fits =>
          have same : before.journal = seen.after.journal := by
            rw [Register.journal_of_loaded fits.loaded, Register.journal_of_loaded loaded,
              succeeds.record fits.generation.symm]
          have journaled : (before.withJournal journal).journal = journal := rfl
          refine .inl ?_
          rw [← status, stored, durableEdges, same, journaled, made]
          exact List.Sublist.refl _
      | unchanged unchanged _ isLoaded revision held near =>
          have held : before.journal = journal := by
            rw [Register.journal_of_loaded isLoaded, held]
          rw [← status, unchanged]
          by_cases repeats : stage.forwards = true ∧ edges ≠ []
          · refine .inr ⟨⟨stage, allowed, repeats.1⟩, seen, last, ?_, ?_, ?_⟩
            · rw [held, revision]
            · rcases near with same | ⟨-, later⟩
              · -- The record the journal was planned on would hold it already.
                rw [← held, Register.journal_of_loaded isLoaded, succeeds.record same,
                  ← Register.journal_of_loaded loaded,
                  transitionEdges_kept rfl] at made
                exact absurd made.symm repeats.2
              · exact later
            · rw [held, made]
              exact repeats.2
          · refine .inl ?_
            have silent : exposedEdges stage edges .unchanged = [] := by
              by_cases forwards : stage.forwards = true
              · rw [exposedEdges, if_pos forwards]
                exact not_not.mp fun some => repeats ⟨forwards, some⟩
              · rw [exposedEdges, if_neg forwards]
            rw [silent]
            exact List.nil_sublist _

/-- The calls of a client expose the edges of their own transitions, where none of
them repeats one. -/
theorem Exposes.owned (h : Exposes observation stages log own edges)
    (answers : Along StoreRely log own) (valid : LeavesValid (log ++ own))
    (tick : ∀ stage, stages stage → stage.isControl = false)
    (alone : ∀ before e after, own = before ++ e :: after →
      (∃ stage, stages stage ∧ stage.forwards = true) → ¬ Repeats (log ++ before) e) :
    edges.Sublist (own.flatMap durableEdges) := by
  induction h with
  | nil => exact List.Sublist.refl _
  | @cons log own e edges more first rest ih =>
      obtain ⟨rely, answers⟩ := answers
      rw [List.flatMap_cons]
      refine .append ?_ (ih answers ?_ fun before f after split forwards => ?_)
      · refine (first.owned rely (fun f mem => valid f (List.mem_append_left _ mem))
          tick).resolve_right fun repeats => ?_
        have repeated := alone [] e own rfl repeats.1
        rw [List.append_nil] at repeated
        exact repeated repeats.2
      · rwa [List.append_assoc, List.singleton_append]
      · have alone := alone (e :: before) f after (by rw [split, List.cons_append]) forwards
        rwa [List.append_assoc, List.singleton_append]

theorem Exposing.owned {log' : StoreLog} (h : Exposing observation stages log edges log')
    (answers : Along StoreRely [] log') (valid : LeavesValid log')
    (tick : ∀ stage, stages stage → stage.isControl = false)
    (alone : ∀ before e after, log' = before ++ e :: after → log.length ≤ before.length →
      (∃ stage, stages stage ∧ stage.forwards = true) → ¬ Repeats before e) :
    ∃ own, log' = log ++ own ∧ edges.Sublist (own.flatMap durableEdges) := by
  obtain ⟨own, rfl, exposes⟩ := h
  refine ⟨own, rfl, exposes.owned (along_append.mp answers).2 valid tick
    fun before e after split => ?_⟩
  exact alone (log ++ before) e after (by rw [split, List.append_assoc])
    (by rw [List.length_append]; omega)

end

/-! ### Ticks, evaluations and reconciliations -/

/-- An operation the clock drives. -/
def DeviceOp.IsClock : DeviceOp → Prop
  | .tick _ | .evaluate _ | .reconcile _ => True
  | _ => False

/-- Where a client exposes the edges of a commit that was durable already: in a
reconciliation, and where a tick settles the active occurrence, with the call behind
its first load. -/
def Caller.forwards (caller : Caller) (log : StoreLog) : Bool :=
  match caller.op with
  | .reconcile _ => true
  | .tick observation =>
      caller.coordinator.reconciliationPending ||
        (isBootPending caller.coordinator observation && log.length == 1)
  | _ => false

/-- No call of the client repeats a transition where it would expose it. -/
def Caller.Owns (caller : Caller) (own : StoreLog) : Prop :=
  ∀ before e after, own = before ++ e :: after → caller.forwards before = true →
    ¬ Repeats before e

section

variable {observation : RuntimeTickObservation} {log own : StoreLog} {bootPending : Bool}
  {result : RuntimeTickResult}

/-- Settling is a load and at most one commit. -/
theorem meets_settleLoaded_calls :
    Meets StoreRely (fun _ log' => log'.length ≤ log.length + 2)
      (settleLoaded observation bootPending result) log := by
  unfold settleLoaded
  refine Meets.issue fun before loaded after _ => ?_
  split
  · exact (by simp : (log ++ [_]).length ≤ log.length + 2)
  unfold settleActiveOccurrence
  split
  · exact (by simp : (log ++ [_]).length ≤ log.length + 2)
  dsimp only
  split
  · exact (by simp : (log ++ [_]).length ≤ log.length + 2)
  split
  · refine Meets.issue fun before' committed after' _ => ?_
    split
    · exact (by simp : (log ++ [_] ++ [_]).length ≤ log.length + 2)
    · exact (by simp : (log ++ [_] ++ [_]).length ≤ log.length + 2)
  · exact (by simp : (log ++ [_]).length ≤ log.length + 2)

/-- A tick that owes no reconciliation settles only for a boot, with its first two
calls, and then evaluates. -/
theorem meets_unlatchedTick {state : RuntimeCoordinatorState}
    (unlatched : state.reconciliationPending = false) :
    Meets StoreRely (fun done log => ∃ middle edges more,
      middle.length ≤ 2 ∧ (isBootPending state observation = false → middle = []) ∧
      Exposing (observation.booted (isBootPending state observation)) (· = .settle) [] edges
        middle ∧
      Exposing (observation.booted false) evaluatorStage middle more log ∧
      done.1.edges = edges ++ more) (runRuntimeTick state observation) [] := by
  unfold runRuntimeTick
  split
  · exact ⟨[], [], [], Nat.zero_le _, fun _ => rfl, .refl, .refl, rfl⟩
  rw [if_neg (by simp [unlatched])]
  split
  · rename_i pending
    have settled := (@meets_settleLoaded observation [] true {} fun _ =>
      bootId_of_pending pending).and meets_settleLoaded_calls
    refine settled.bind ?_
    have absurdly {P : Prop} (handled : isBootPending state observation = false) : P := by
      rw [pending] at handled
      cases handled
    rintro (after | after) middle ⟨progress, calls⟩
    · obtain ⟨exposing, silent, -⟩ := progress
      exact ⟨middle, [], [], calls, absurdly, by rwa [pending], .refl, silent⟩
    obtain ⟨edges, settling, reported, -⟩ := progress
    refine (@meets_evaluationTick observation middle after).bind ?_
    rintro final log' ⟨more, evaluating, reported'⟩
    exact ⟨middle, edges, more, calls, absurdly, by rwa [pending], evaluating,
      reported'.trans (by rw [reported]; rfl)⟩
  · refine (@meets_evaluationTick observation [] {}).bind ?_
    rintro final log' ⟨more, evaluating, reported⟩
    exact ⟨[], [], more, Nat.zero_le _, fun _ => rfl, .refl, evaluating, reported⟩

theorem evaluatorStage.keeps {stage : CommitStage} (h : evaluatorStage stage) :
    stage.forwards = false := by
  rcases h with rfl | rfl
  · rfl
  · rfl

/-- Two parts of a client's calls, each of which exposes its own edges. -/
theorem owned_append {first second : StoreLog} {edges more : List AlertEdge}
    (owned : edges.Sublist (first.flatMap durableEdges))
    (owned' : more.Sublist (second.flatMap durableEdges)) :
    (edges ++ more).Sublist ((first ++ second).flatMap durableEdges) := by
  rw [List.flatMap_append]
  exact owned.append owned'

/-- A client exposes the edges of its own transitions. -/
theorem Caller.meets_owned (caller : Caller) (clock : caller.op.IsClock) :
    Meets StoreRely (fun done log => Along StoreRely [] log → LeavesValid log →
      caller.Owns log → done.1.edges.Sublist (log.flatMap durableEdges)) caller.program [] := by
  obtain ⟨op, coordinator⟩ := caller
  cases op with
  | engine | disable | saveSchedule | reboot => exact clock.elim
  | evaluate observation =>
      refine ((DeviceOp.evaluate observation).meets coordinator).post ?_
      rintro done log ⟨-, exposing⟩ answers valid -
      obtain ⟨own, rfl, owned⟩ := exposing.owned answers valid (fun _ => evaluatorStage.tick)
        fun _ _ _ _ _ ⟨stage, allowed, forwards⟩ => by
          rw [allowed.keeps] at forwards
          cases forwards
      exact owned
  | reconcile observation =>
      refine ((DeviceOp.reconcile observation).meets coordinator).post ?_
      rintro done log ⟨-, exposing⟩ answers valid owns
      obtain ⟨own, rfl, owned⟩ := exposing.owned answers valid (by rintro _ rfl; rfl)
        fun before e after split _ _ => owns before e after split rfl
      exact owned
  | tick observation =>
      cases latched : coordinator.reconciliationPending with
      | true =>
          refine ((DeviceOp.tick observation).meets coordinator).post ?_
          rintro done log ⟨result, outcome, progress⟩ answers valid owns
          have alone (before e after) (split : log = before ++ e :: after) : ¬ Repeats before e :=
            owns before e after split (by simp [Caller.forwards, latched])
          cases progress with
          | ended _ silent =>
              rw [outcome]
              exact (show result.edges = [] from silent) ▸ List.nil_sublist _
          | settled settling evaluating edges =>
              obtain ⟨later, rfl, owned'⟩ := evaluating.owned answers valid
                (fun _ => evaluationStage.tick) fun before e after split _ _ =>
                  alone before e after split
              obtain ⟨own, rfl, owned⟩ := settling.owned (along_append.mp answers).1
                (fun e mem => valid e (List.mem_append_left _ mem)) (by rintro _ rfl; rfl)
                fun before e after split _ _ =>
                  alone before e (after ++ later) (by rw [split]; simp)
              rw [outcome]
              exact (show result.edges = _ from edges) ▸ owned_append owned owned'
      | false =>
          refine (meets_unlatchedTick latched).bind ?_
          rintro ⟨result, coordinator'⟩ log progress answers valid owns
          obtain ⟨middle, first, second, calls, idle, settling, evaluating, edges⟩ := progress
          obtain ⟨later, rfl, owned'⟩ := evaluating.owned answers valid
            (fun _ => evaluatorStage.tick) fun _ _ _ _ _ ⟨stage, allowed, forwards⟩ => by
              rw [allowed.keeps] at forwards
              cases forwards
          obtain ⟨own, rfl, owned⟩ := settling.owned (along_append.mp answers).1
            (fun e mem => valid e (List.mem_append_left _ mem)) (by rintro _ rfl; rfl)
            fun before e after split _ _ repeats => by
              -- A commit of the settling stage is the second call of a pending boot.
              have pending : isBootPending coordinator observation = true := by
                by_contra handled
                rw [idle (by simpa using handled)] at split
                simp at split
              obtain ⟨seen, last, -⟩ := id repeats
              have second : before.length = 1 := by
                have nonempty : before ≠ [] := by
                  rintro rfl
                  cases last
                have whole := congrArg List.length split
                rw [List.length_append, List.length_cons] at whole
                have := List.length_pos_iff.mpr nonempty
                omega
              exact owns before e (after ++ later) (by rw [split]; simp)
                (by simp [Caller.forwards, pending, second]) repeats
          exact (show result.edges = _ from edges) ▸ owned_append owned owned'

end

/-! ### Two callers -/

section

variable {ι : Type} [DecidableEq ι] (callers : ι → Caller) (schedule : List ι) (slots : Slots)

/-- The edges a client has exposed: those of its result, once it has returned. -/
def exposedBy (i : ι) : List AlertEdge :=
  ((runCallers callers schedule slots).2.2 i).result?.elim [] fun done => done.1.edges

/-- What a client exposes is what it exposes to the register. -/
theorem exposedBy_register (i : ι) : exposedBy callers schedule slots i =
    ((runPool (performRegister {}) schedule (scanSlots slots)
      fun i => (callers i).program).2.2 i).result?.elim [] fun done => done.1.edges := by
  have sim := (performStore_simulates {}).runPool schedule slots fun i => (callers i).program
  rw [sim]
  rfl

theorem poolTrace_leavesValid (i : ι) : LeavesValid (ownLog i (poolTrace callers schedule slots)) := by
  intro e mem loaded
  rw [poolTrace, ownLog_mapState] at mem
  obtain ⟨event, -, rfl⟩ := List.mem_map.mp mem
  exact (validateSnapshot_scanSlots loaded).1

/-- A client that repeats no transition exposes edges of its own transitions only. -/
theorem exposedBy_sublist {i : ι} (clock : (callers i).op.IsClock)
    (owns : (callers i).Owns (ownLog i (poolTrace callers schedule slots))) :
    (exposedBy callers schedule slots i).Sublist
      ((ownLog i (poolTrace callers schedule slots)).flatMap durableEdges) := by
  unfold exposedBy
  cases returned : ((runCallers callers schedule slots).2.2 i).result? with
  | none => exact List.nil_sublist _
  | some done =>
      have answers := (performStore_serves {}).along_runPool schedule slots
        (fun i => (callers i).program) i
      have owned := Meets.runPool scanSlots ((callers i).meets_owned clock) answers
      rw [show (runPool (performStore {}) schedule slots fun i => (callers i).program).2.2 i =
        .done done from Program.result?_eq_some.mp returned, List.nil_append,
        ← ownLog_mapState] at owned
      rw [← ownLog_mapState] at answers
      exact owned answers (poolTrace_leavesValid callers schedule slots i) owns

end

/-- The calls of two clients make up the trace. -/
theorem count_ownLog (trace : List (Bool × StoreEvent)) (edge : AlertEdge) :
    ((ownLog true trace).flatMap durableEdges).count edge +
        ((ownLog false trace).flatMap durableEdges).count edge =
      (trace.flatMap fun e => durableEdges e.2).count edge := by
  induction trace with
  | nil => rfl
  | cons e trace ih =>
      obtain ⟨i, e⟩ := e
      cases i
      · rw [ownLog_cons_self, ownLog_cons_of_ne (by simp)]
        simp only [List.flatMap_cons, List.count_append]
        omega
      · rw [ownLog_cons_self, ownLog_cons_of_ne (by simp)]
        simp only [List.flatMap_cons, List.count_append]
        omega

/-- Two ticks, evaluations or reconciliations beside each other on a healthy store.
While neither commits a transition the other made durable in a place where it
exposes that, each exposes edges of its own transitions only: no edge is exposed
more often than a transition with it becomes durable. -/
theorem one_edge_per_transition (callers : Bool → Caller)
    (clock : ∀ i, (callers i).op.IsClock) (schedule : List Bool) (slots : Slots)
    (owns : ∀ i, (callers i).Owns (ownLog i (poolTrace callers schedule slots))) :
    let trace := poolTrace callers schedule slots
    (∀ i, (exposedBy callers schedule slots i).Sublist ((ownLog i trace).flatMap durableEdges)) ∧
    ∀ edge, (exposedBy callers schedule slots true).count edge +
        (exposedBy callers schedule slots false).count edge ≤
      (trace.flatMap fun e => durableEdges e.2).count edge := by
  intro trace
  have owned (i : Bool) := exposedBy_sublist callers schedule slots (clock i) (owns i)
  refine ⟨owned, fun edge => ?_⟩
  rw [← count_ownLog]
  exact Nat.add_le_add ((owned true).count_le edge) ((owned false).count_le edge)

/-- Two clients look at the one-alarm store at its instant. -/
def atInstant (op : RuntimeTickObservation → DeviceOp) (_ : Bool) : Caller :=
  { op := op ⟨true, 1000, 5, []⟩ }

/-- Two evaluators load the same record; the second finds the admission durable. -/
theorem one_edge_per_transition_evaluated :
    let callers := atInstant .evaluate
    let schedule := [true, false, true, false]
    let trace := poolTrace callers schedule oneAlarmStore
    (∀ i, (exposedBy callers schedule oneAlarmStore i).Sublist
      ((ownLog i trace).flatMap durableEdges)) ∧
    ∀ edge, (exposedBy callers schedule oneAlarmStore true).count edge +
        (exposedBy callers schedule oneAlarmStore false).count edge ≤
      (trace.flatMap fun e => durableEdges e.2).count edge :=
  one_edge_per_transition (atInstant .evaluate) (fun _ => trivial) [true, false, true, false]
    oneAlarmStore fun _ _ _ _ _ forwards => absurd forwards (by simp [Caller.forwards, atInstant])

/-- Two reconciliations load the same record and commit the same batch. The alarm is
admitted once, and both start it. -/
theorem reconciled_twice :
    let callers := atInstant .reconcile
    let schedule := [true, false, true, false]
    let start := AlertEdge.start [0x77, 0x3a, 0x31, 0x3a, 0x31, 0x30, 0x30, 0x30]
    (exposedBy callers schedule oneAlarmStore true).count start = 1 ∧
      (exposedBy callers schedule oneAlarmStore false).count start = 1 ∧
      ((poolTrace callers schedule oneAlarmStore).flatMap fun e => durableEdges e.2).count start =
        1 := by
  intro callers schedule start
  rw [exposedBy_register, exposedBy_register, poolTrace_register, scanSlots_oneAlarmStore]
  decide +kernel

end DawnDock
