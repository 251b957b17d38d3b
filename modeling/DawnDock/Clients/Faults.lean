import DawnDock.Clients.Alerts

/-!
One operation of a device under storage faults.

Every client gives up on its first failed call (`DeviceOp.failStop`). Over faulty
storage it therefore makes the calls it makes over healthy storage up to the first
one that fails (`FailStop.exec_cut`), and that one either left the record or landed
in full. Edges come from stored commits only.

* `commit_before_effect` states both for every operation of a device.
-/

namespace DawnDock

open AtomicProgram

/-! ### Giving up -/

/-- A reply on which the clients of the store give up. -/
def Failed : (c : StoreCall) → StoreReply c → Prop
  | .load, reply => reply.status ≠ .loaded
  | .save .., reply | .saveOccurrenceState .., reply | .migrateToCurrentSchema, reply =>
      reply.status.committed = false

/-- A stage that ended its client. -/
def Errored {ε α : Type} (result : Except ε α) : Prop := ∃ after, result = .error after

/-- A client whose last call may fail. -/
abbrev GivesUp {α : Type} (p : Program StoreReply α) : Prop := FailStop Failed (fun _ => True) p

/-- A commit that fails is reported and ends the evaluation. -/
theorem failStop_commitOccurrenceTransition (state : PersistentAlarmState)
    (evaluation : CommittedScheduleEvaluation) (alarm : CommittedAlarmEvaluation) :
    FailStop Failed Errored (commitOccurrenceTransition state evaluation alarm) := by
  unfold commitOccurrenceTransition
  split
  · trivial
  refine FailStop.issue (fun committed failed => ?_) fun committed => ?_
  · have failed : committed.status.committed = false := failed
    simp only [failed, Bool.not_false, if_true]
    exact ⟨_, rfl, _, rfl⟩
  · split
    · trivial
    · split
      · trivial
      · trivial

theorem failStop_settleEvaluation (state : PersistentAlarmState)
    (evaluation : CommittedScheduleEvaluation) (alarm : CommittedAlarmEvaluation) :
    FailStop Failed Errored (settleEvaluation state evaluation alarm) := by
  unfold settleEvaluation
  split
  · trivial
  refine (failStop_commitOccurrenceTransition state evaluation alarm).bind ?_ ?_
  · rintro _ ⟨after, rfl⟩
    exact ⟨_, rfl, after, rfl⟩
  · rintro (after | ⟨after, alarm⟩)
    · trivial
    · trivial

/-- By induction on the alarms: a failed commit keeps the loop from the rest. -/
theorem givesUp_evaluateAlarms (wallUtcSeconds monotonicSeconds : Int64)
    (alarms : List StoredAlarmDefinition) (state : PersistentAlarmState)
    (evaluation : CommittedScheduleEvaluation) :
    GivesUp (evaluateAlarms wallUtcSeconds monotonicSeconds alarms state evaluation) := by
  induction alarms generalizing state evaluation with
  | nil => trivial
  | cons alarm rest ih =>
      refine (failStop_settleEvaluation _ _ _).bind ?_ ?_
      · rintro _ ⟨after, rfl⟩
        exact ⟨_, rfl, trivial⟩
      · rintro (after | after)
        · trivial
        · exact ih _ _

theorem givesUp_evaluateCommittedSchedule (wallUtcSeconds monotonicSeconds : Int64)
    (timeValid : Bool) (bootId : Text) :
    GivesUp (evaluateCommittedSchedule wallUtcSeconds monotonicSeconds timeValid bootId) := by
  unfold evaluateCommittedSchedule
  split
  · trivial
  refine FailStop.issue (fun loaded failed => ?_) fun loaded => ?_
  · have failed : loaded.status ≠ .loaded := failed
    simp only [failed, ne_eq, not_false_eq_true, if_true]
    exact ⟨_, rfl, trivial⟩
  · split
    · trivial
    dsimp only
    split
    · exact givesUp_evaluateAlarms _ _ _ _ _
    · refine (failStop_settleEvaluation _ _ _).bind ?_ ?_
      · rintro _ ⟨after, rfl⟩
        exact ⟨_, rfl, trivial⟩
      · rintro (after | after)
        · trivial
        · exact givesUp_evaluateAlarms _ _ _ _ _

/-- The load and the one commit of the batch. -/
theorem givesUp_reconcileAfterTimeValid (wallUtcSeconds monotonicSeconds : Int64)
    (timeValid : Bool) :
    GivesUp (reconcileAfterTimeValid wallUtcSeconds monotonicSeconds timeValid) := by
  unfold reconcileAfterTimeValid
  split
  · trivial
  refine FailStop.issue (fun loaded failed => ?_) fun loaded => ?_
  · have failed : loaded.status ≠ .loaded := failed
    simp only [failed, ne_eq, not_false_eq_true, if_true]
    exact ⟨_, rfl, trivial⟩
  · split
    · trivial
    dsimp only
    split
    · trivial
    split
    · trivial
    split
    · trivial
    split
    · trivial
    refine FailStop.issue (fun committed failed => ?_) fun committed => ?_
    · have failed : committed.status.committed = false := failed
      simp only [failed, Bool.not_false, if_true]
      exact ⟨_, rfl, trivial⟩
    · split
      · trivial
      · trivial

/-- A settling that is not stored ends the tick. -/
theorem failStop_settleActiveOccurrence (loaded : LoadResult)
    (observation : RuntimeTickObservation) (bootPending : Bool) (result : RuntimeTickResult) :
    FailStop Failed Errored (settleActiveOccurrence loaded observation bootPending result) := by
  unfold settleActiveOccurrence
  split
  · trivial
  dsimp only
  split
  · trivial
  split
  · refine FailStop.issue (fun committed failed => ?_) fun committed => ?_
    · have failed : committed.status.committed = false := failed
      simp only [failed, Bool.not_false, if_true]
      exact ⟨_, rfl, _, rfl⟩
    · split
      · trivial
      · trivial
  · trivial

theorem failStop_settleLoaded (observation : RuntimeTickObservation) (bootPending : Bool)
    (result : RuntimeTickResult) :
    FailStop Failed Errored (settleLoaded observation bootPending result) := by
  refine FailStop.issue (fun loaded failed => ?_) fun loaded => ?_
  · have failed : loaded.status ≠ .loaded := failed
    simp only [failed, ne_eq, not_false_eq_true, if_true]
    exact ⟨_, rfl, _, rfl⟩
  · split
    · trivial
    · exact failStop_settleActiveOccurrence _ _ _ _

/-- What follows the last stage adds no call. -/
theorem GivesUp.map {α β : Type} {p : Program StoreReply α} (h : GivesUp p) (f : α → β) :
    GivesUp (p >>= fun a => pure (f a)) :=
  FailStop.bind h (fun a _ => ⟨f a, rfl, trivial⟩) fun _ => trivial

theorem givesUp_evaluationTick (observation : RuntimeTickObservation)
    (result : RuntimeTickResult) : GivesUp (evaluationTick observation result) :=
  GivesUp.map (givesUp_evaluateCommittedSchedule _ _ _ _) _

/-- The latched tick: the journal, the batch, then the evaluation. -/
theorem givesUp_latchedTick (state : RuntimeCoordinatorState)
    (observation : RuntimeTickObservation) : GivesUp (latchedTick state observation) := by
  refine (failStop_settleLoaded _ _ _).bind ?_ ?_
  · rintro _ ⟨after, rfl⟩
    exact ⟨_, rfl, trivial⟩
  · rintro (after | after)
    · trivial
    · exact GivesUp.map (givesUp_reconcileAfterTimeValid _ _ _) _

/-- One tick of the coordinator. -/
theorem givesUp_runRuntimeTick (state : RuntimeCoordinatorState)
    (observation : RuntimeTickObservation) : GivesUp (runRuntimeTick state observation) := by
  unfold runRuntimeTick
  split
  · trivial
  split
  · exact givesUp_latchedTick state observation
  split
  · refine (failStop_settleLoaded _ _ _).bind ?_ ?_
    · rintro _ ⟨after, rfl⟩
      exact ⟨_, rfl, trivial⟩
    · rintro (after | after)
      · trivial
      · exact GivesUp.map (givesUp_evaluationTick _ _) _
  · exact GivesUp.map (givesUp_evaluationTick _ _) _

theorem failStop_dismissForDisable (alarmId : Text) (loaded : LoadResult)
    (result : CommittedAlarmDisableResult) :
    FailStop Failed Errored (dismissForDisable alarmId loaded result) := by
  unfold dismissForDisable
  split
  · trivial
  split
  · trivial
  dsimp only
  split
  · trivial
  refine FailStop.issue (fun committed failed => ?_) fun committed => ?_
  · have failed : committed.status.committed = false := failed
    simp only [failed, Bool.not_false, if_true]
    exact ⟨_, rfl, _, rfl⟩
  · split
    · trivial
    · trivial

theorem givesUp_saveDisabled (alarmId : Text) (loaded : LoadResult) (enabled : Bool)
    (result : CommittedAlarmDisableResult) :
    GivesUp (saveDisabled alarmId loaded enabled result) := by
  unfold saveDisabled
  split
  · trivial
  dsimp only
  split
  · trivial
  refine FailStop.issue (fun committed failed => ?_) fun committed => ?_
  · have failed : committed.status.committed = false := failed
    simp only [failed, Bool.false_eq_true, if_false]
    exact ⟨_, rfl, trivial⟩
  · split
    · trivial
    · trivial

/-- The dismissal first, then the definition. -/
theorem givesUp_disableCommittedAlarm (alarmId : Text) :
    GivesUp (disableCommittedAlarm alarmId) := by
  refine FailStop.issue (fun loaded failed => ?_) fun loaded => ?_
  · have failed : loaded.status ≠ .loaded := failed
    simp only [failed, ne_eq, not_false_eq_true, if_true]
    exact ⟨_, rfl, trivial⟩
  · split
    · trivial
    dsimp only
    split
    · trivial
    refine (failStop_dismissForDisable _ _ _).bind ?_ ?_
    · rintro _ ⟨after, rfl⟩
      exact ⟨_, rfl, trivial⟩
    · rintro (after | after)
      · trivial
      · exact givesUp_saveDisabled _ _ _ _

theorem givesUp_commitEngineCall (call : EngineCall) : GivesUp (commitEngineCall call) := by
  refine FailStop.issue (fun loaded failed => ?_) fun loaded => ?_
  · have failed : loaded.status ≠ .loaded := failed
    simp only [failed, ne_eq, not_false_eq_true, if_true]
    exact ⟨_, rfl, trivial⟩
  · split
    · trivial
    refine (failStop_commitOccurrenceTransition _ _ _).bind ?_ ?_
    · rintro _ ⟨after, rfl⟩
      exact ⟨_, rfl, trivial⟩
    · rintro (after | ⟨after, alarm⟩)
      · trivial
      · trivial

/-- Every operation of a device gives up on its first failed call. -/
theorem DeviceOp.givesUp (op : DeviceOp) (coordinator : RuntimeCoordinatorState) :
    GivesUp (op.program coordinator) := by
  cases op with
  | tick observation => exact GivesUp.map (givesUp_runRuntimeTick _ _) _
  | evaluate observation => exact GivesUp.map (givesUp_evaluateCommittedSchedule _ _ _ _) _
  | reconcile observation => exact GivesUp.map (givesUp_reconcileAfterTimeValid _ _ _) _
  | engine call => exact GivesUp.map (givesUp_commitEngineCall call) _
  | disable alarmId => exact GivesUp.map (givesUp_disableCommittedAlarm alarmId) _
  | saveSchedule schedule expectedRevision =>
      exact fun committed => ⟨fun _ => ⟨_, rfl, trivial⟩, trivial⟩
  | reboot => trivial

/-! ### The store under faults -/

/-- A faulty write is the healthy one, or it is reported as failed; then it landed or left the
record. -/
theorem writeRegister_faults (faults : StorageFaults) (current : Register) (plan : WritePlan) :
    writeRegister faults current plan = writeRegister {} current plan ∨
      (writeRegister faults current plan).1.status.committed = false ∧
        (current.SameRecord (writeRegister faults current plan).2 ∨
          (writeRegister faults current plan).2 = (writeRegister {} current plan).2) := by
  unfold writeRegister
  split
  · exact .inr ⟨rfl, .inl (.inl rfl)⟩
  cases plan with
  | answer result => exact .inl rfl
  | commit snapshot destination =>
      simp only [WritePlan.runOn, Register.commit]
      cases confirmed : faults.confirms with
      | true =>
          left
          have applied : faults.write = .applied := by
            unfold StorageFaults.confirms at confirmed
            split at confirmed
            · assumption
            · cases confirmed
          rw [applied]
          rfl
      | false =>
          right
          refine ⟨?_, ?_⟩
          · simp only [Bool.false_eq_true, if_false]
            split
            · rfl
            · rfl
          · rcases current.write_cases snapshot destination faults.write with same | ⟨-, next⟩
            · exact .inl same
            · exact .inr next

/-- Under faults the store answers as without, or the call fails and leaves the
record or lands in full. -/
theorem performRegister_faults (faults : StorageFaults) (current : Register) (c : StoreCall) :
    performRegister faults current c = performRegister {} current c ∨
      Failed c (performRegister faults current c).1 ∧
        (current.SameRecord (performRegister faults current c).2 ∨
          (performRegister faults current c).2 = (performRegister {} current c).2) := by
  cases c with
  | load =>
      simp only [performRegister]
      split
      · exact .inr ⟨by simp [Failed], .inl (.inl rfl)⟩
      · exact .inl rfl
  | migrateToCurrentSchema => exact writeRegister_faults _ _ _
  | save snapshot expectedRevision => exact writeRegister_faults _ _ _
  | saveOccurrenceState state revision generation => exact writeRegister_faults _ _ _

theorem Device.calls_register (faults : ℕ → StorageFaults) (device : Device) (op : DeviceOp) :
    device.calls faults op = (events (withStream fun n => performRegister (faults n))
      (op.program device.coordinator) (device.operations, device.current)).map
        (Event.mapState Prod.snd) :=
  (device.calls_view faults op).symm

theorem faultyRegister_healthy :
    Simulates (faultyRegister healthy) (performRegister {}) Prod.snd := fun _ _ => rfl

/-- Without faults the device is the healthy one. -/
theorem Device.calls_healthy (device : Device) (op : DeviceOp) :
    device.calls healthy op =
      events (performRegister {}) (op.program device.coordinator) device.current := by
  rw [Device.calls_register]
  exact faultyRegister_healthy.events _ _

theorem Device.outcome_healthy (device : Device) (op : DeviceOp) :
    device.outcome healthy op =
      (exec (performRegister {}) (op.program device.coordinator) device.current).1.1 := by
  have ideal := faultyRegister_healthy.exec (op.program device.coordinator)
    (device.operations, device.current)
  rw [Device.outcome, ← congrArg Prod.fst (device.result_view healthy op)]
  exact congrArg (fun done => done.1.1) ideal.symm

theorem Device.outcome_register (faults : ℕ → StorageFaults) (device : Device) (op : DeviceOp) :
    device.outcome faults op = (exec (withStream fun n => performRegister (faults n))
      (op.program device.coordinator) (device.operations, device.current)).1.1 :=
  congrArg (fun done => done.1.1) (device.result_view faults op).symm

/-! ### Prefix atomicity -/

/-- A stored transition that carries the edge. -/
def CommitsEdge (op : DeviceOp) (e : StoreEvent) (edge : AlertEdge) : Prop :=
  storeStatus e.call e.reply = some .stored ∧ ∃ observation stage edges journal,
    op.Observes observation ∧ edge ∈ edges ∧
      Plans e.before.snapshot observation stage edges journal ∧
      e.after = e.before.withJournal journal

/-- Each edge comes from a commit of the same operation. -/
theorem SoloRun.commitsEdge {op : DeviceOp} {own : StoreLog} {edges : List AlertEdge}
    {s t : Register}
    (h : SoloRun (fun observation _ => op.Observes observation) s own edges t)
    {edge : AlertEdge} (mem : edge ∈ edges) : ∃ e ∈ own, CommitsEdge op e edge := by
  induction h with
  | nil => cases mem
  | cons first rest ih =>
      rcases List.mem_append.mp mem with mem | mem
      · cases first with
        | kept => cases mem
        | stored usual planned fits after answer =>
            exact ⟨_, List.mem_cons_self, answer, _, _, _, _, usual, mem, planned, after⟩
        | lost => cases mem
      · obtain ⟨e, later, commits⟩ := ih mem
        exact ⟨e, List.mem_cons_of_mem _ later, commits⟩

/-- One operation of a device with the store to itself, under any faults. Every edge
it exposes belongs to a transition it stored, which the record it leaves still
follows. Its calls are those of the run over healthy storage up to the first one
that fails; the record it leaves is the one before that call or the one after it. -/
theorem commit_before_effect (faults : ℕ → StorageFaults) (device : Device) (op : DeviceOp) :
    let outcome := device.outcome faults op
    let after := (device.step faults op).current
    (∀ edge ∈ outcome.edges, ∃ e ∈ device.calls faults op,
      CommitsEdge op e edge ∧ Evolves e.after after) ∧
    ((device.calls faults op = device.calls healthy op ∧
        outcome = device.outcome healthy op) ∨
      ∃ done next rest n, device.calls healthy op = done ++ next :: rest ∧
        device.calls faults op =
          done ++ [eventAt (performRegister (faults n)) next.before next.call] ∧
        Failed next.call (performRegister (faults n) next.before next.call).1 ∧
        (next.before.SameRecord after ∨ after = next.after)) := by
  intro outcome after
  constructor
  · intro edge mem
    obtain ⟨e, called, commits⟩ := (device.soloRun faults op).commitsEdge mem
    refine ⟨e, called, commits, ?_⟩
    have evolves : ∀ e ∈ device.calls faults op, Evolves e.before e.after := by
      intro _ mem
      obtain ⟨e, recorded, rfl⟩ := List.mem_map.mp mem
      rw [event_step _ _ _ e recorded]
      exact (faultyStore_serves faults).evolves e.before e.call
    obtain ⟨earlier, later, split⟩ := List.append_of_mem called
    have linked := device.calls_linked faults op
    rw [split] at linked
    obtain ⟨middle, -, rfl, linked⟩ := linked_append.mp linked
    exact (linked.related (R := Evolves) .refl .trans fun f mem => evolves f (by
      rw [split]
      exact List.mem_append_right _ (List.mem_cons_of_mem _ mem))).1
  · have agrees : ∀ n s c, performRegister (faults n) s c = performRegister {} s c ∨
        Failed c (performRegister (faults n) s c).1 := fun n s c =>
      (performRegister_faults (faults n) s c).imp_right And.left
    have cut := (op.givesUp device.coordinator).exec_cut agrees device.operations device.current
    rw [← Device.calls_register, ← Device.calls_healthy] at cut
    rcases cut with ⟨calls, result⟩ | ⟨done, next, rest, ideal, n, failed, calls, -⟩
    · refine .inl ⟨calls, ?_⟩
      rw [Device.outcome_healthy]
      exact (device.outcome_register faults op).trans (congrArg Prod.fst result)
    · refine .inr ⟨done, next, rest, n, ideal, calls, failed, ?_⟩
      have final : (performRegister (faults n) next.before next.call).2 = after := by
        refine (device.calls_linked faults op).last
          (e := eventAt (performRegister (faults n)) next.before next.call) ?_
        rw [calls, List.getLast?_concat]
      have step : next = eventAt (performRegister {}) next.before next.call := by
        refine event_step _ (op.program device.coordinator) device.current next ?_
        rw [← Device.calls_healthy, ideal]
        simp
      rw [← final, step]
      rcases performRegister_faults (faults n) next.before next.call with same | ⟨-, outcome⟩
      · exact .inr (congrArg Prod.snd same)
      · exact outcome

end DawnDock
