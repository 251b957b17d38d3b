import DawnDock.Clients.History
import DawnDock.Clients.Solo

/-!
Clients beside each other on one healthy store.

`poolTrace` is what any number of clients do to the store under a schedule, each
operation as one atomic call. Whatever the schedule, the calls of one client are
those of its program answered as the rely says (`poolTrace_progress`), so what is
known of its calls holds in every interleaving.

* `no_stale_admission`: an occurrence is journaled for the first time only into a
  record whose own schedule has its alarm, enabled.
-/

namespace DawnDock

open AtomicProgram

/-! ### Pools of clients -/

/-- A client of the store: an operation with a coordinator state of its own. -/
structure Caller where
  op : DeviceOp
  coordinator : RuntimeCoordinatorState := {}

def Caller.program (caller : Caller) : Program StoreReply (Outcome × RuntimeCoordinatorState) :=
  caller.op.program caller.coordinator

section

variable {ι : Type} [DecidableEq ι]

/-- Clients under a schedule: the store operations in the order they happen, with
the final slots and what remains of every client. -/
def runCallers (callers : ι → Caller) (schedule : List ι) (slots : Slots) :
    List (ι × Event StoreReply Slots) × Slots ×
      Pool StoreReply fun _ : ι => Outcome × RuntimeCoordinatorState :=
  runPool (performStore {}) schedule slots fun i => (callers i).program

/-- The store operations, with the records loads would return around them. -/
def poolTrace (callers : ι → Caller) (schedule : List ι) (slots : Slots) : List (ι × StoreEvent) :=
  (runCallers callers schedule slots).1.map fun e => (e.1, e.2.mapState scanSlots)

theorem ownLog_mapState {σ τ : Type} (f : σ → τ) (i : ι)
    (trace : List (ι × Event StoreReply σ)) :
    ownLog i (trace.map fun e => (e.1, e.2.mapState f)) =
      (ownLog i trace).map (Event.mapState f) := by
  induction trace with
  | nil => rfl
  | cons e trace ih =>
      obtain ⟨j, e⟩ := e
      by_cases own : j = i
      · subst own
        simp only [List.map_cons, ownLog_cons_self, ih]
      · simp only [List.map_cons, ownLog_cons_of_ne own, ih]

/-- The register the store refines goes through the same operations. -/
theorem poolTrace_register (callers : ι → Caller) (schedule : List ι) (slots : Slots) :
    poolTrace callers schedule slots =
      (runPool (performRegister {}) schedule (scanSlots slots) fun i => (callers i).program).1 :=
  (congrArg Prod.fst ((performStore_simulates {}).runPool schedule slots _)).symm

/-- Each client's calls, completed by what it would still call, are those of its
operation. -/
theorem poolTrace_progress (callers : ι → Caller) (schedule : List ι) (slots : Slots) (i : ι) :
    let final := (runCallers callers schedule slots).2
    let more := (events (performStore {}) (final.2 i) final.1).map (Event.mapState scanSlots)
    Along StoreRely [] (ownLog i (poolTrace callers schedule slots) ++ more) ∧
      (callers i).op.Progress (callers i).coordinator
        (exec (performStore {}) (final.2 i) final.1).1
        (ownLog i (poolTrace callers schedule slots) ++ more) := by
  intro final more
  have answers := (performStore_serves {}).along_completed schedule slots
    (fun i => (callers i).program) i
  have done := Meets.completed scanSlots ((callers i).op.meets (callers i).coordinator) answers
  dsimp only at answers done
  rw [List.map_append, ← ownLog_mapState] at answers done
  exact ⟨answers, done⟩

/-- Every call of a pool is answered as the rely says, and exposes what its client's
operation observes. -/
theorem poolTrace_effect (callers : ι → Caller) (schedule : List ι) (slots : Slots)
    {i : ι} {e : StoreEvent} (mem : (i, e) ∈ poolTrace callers schedule slots) :
    ∃ log observation stages edges, CallEffect observation stages log e edges ∧
      StoreRely log e := by
  obtain ⟨answers, done⟩ := poolTrace_progress callers schedule slots i
  obtain ⟨log, later, own⟩ := List.append_of_mem (mem_ownLog.mpr mem)
  have exposed := done.along
  rw [own, List.append_assoc] at answers exposed
  have rely := (along_append.mp answers).2.1
  obtain ⟨observation, stages, edges, -, exposure⟩ := (along_append.mp exposed).2.1
  exact ⟨_, observation, stages, edges, exposure.effect rely, rely⟩

end

/-! ### Admissions -/

/-- The occurrence is active or terminal. -/
def Records (journal : PersistentAlarmState) (occurrenceId : Text) : Prop :=
  (∃ a ∈ journal.active, a.occurrenceId = occurrenceId) ∨
    occurrenceId ∈ journal.terminal.map (·.occurrenceId)

/-- The schedule has the alarm of the occurrence, enabled. -/
def Schedules (alarms : List StoredAlarmDefinition) (occurrenceId : Text) : Prop :=
  ∃ alarm ∈ alarms, alarm.enabled = true ∧ makeOccurrenceId alarm.definition = occurrenceId

section

variable {alarms : List StoredAlarmDefinition} {observation : RuntimeTickObservation}
  {snapshot : ScheduleSnapshot} {stage : CommitStage} {state final journal : PersistentAlarmState}
  {edges : List AlertEdge} {occurrenceId : Text}

theorem Records.update {updated : ActiveOccurrence}
    (h : Records { state with active := some updated } occurrenceId) :
    updated.occurrenceId = occurrenceId ∨ Records state occurrenceId := by
  rcases h with ⟨a, held, same⟩ | terminal
  · obtain rfl : updated = a := Option.some.inj held
    exact .inl same
  · exact .inr (.inr terminal)

theorem Records.appendTerminal {occurrence : TerminalOccurrence}
    (h : Records (appendTerminal state occurrence) occurrenceId) :
    Records state occurrenceId ∨ occurrenceId = occurrence.occurrenceId := by
  rcases h with ⟨a, held, same⟩ | terminal
  · rw [appendTerminal_active] at held
    exact .inl (.inl ⟨a, held, same⟩)
  · obtain ⟨t, mem, same⟩ := List.mem_map.mp terminal
    rcases mem_appendTerminal mem with mem | rfl
    · exact .inl (.inr (List.mem_map.mpr ⟨t, mem, same⟩))
    · exact .inr same.symm

theorem Records.closeActive {active : ActiveOccurrence} {reason : TerminalReason}
    (held : state.active = some active)
    (h : Records (closeActive state active reason) occurrenceId) : Records state occurrenceId := by
  have recorded : Records (DawnDock.appendTerminal
      (recordTerminalHighWatermark state active.alarmId active.scheduledUtcSeconds)
      ⟨active.occurrenceId, reason⟩) occurrenceId := by
    rcases h with ⟨a, none, -⟩ | terminal
    · cases none
    · exact .inr terminal
  rcases recorded.appendTerminal with before | rfl
  · exact before
  · exact .inl ⟨active, held, rfl⟩

/-- What a step records is recorded already, or scheduled. -/
theorem TickStep.records (step : TickStep alarms observation state edges final)
    (h : Records final occurrenceId) : Records state occurrenceId ∨ Schedules alarms occurrenceId := by
  cases step with
  | @admitted alarm lateness eligible =>
      rcases h.update with same | before
      · exact .inr ⟨alarm, eligible.mem, eligible.enabled, same⟩
      · exact .inl before
  | @missed alarm reason eligible =>
      rcases Records.appendTerminal h with before | rfl
      · exact .inl before
      · exact .inr ⟨alarm, eligible.mem, eligible.enabled, rfl⟩
  | timedOut held => exact .inl (Records.closeActive held h)
  | expired held => exact .inl (Records.closeActive held h)
  | rerung held | recovered held =>
      rcases h.update with same | before
      · exact .inl (.inl ⟨_, held, same⟩)
      · exact .inl before

theorem TickSteps.records (steps : TickSteps alarms observation state edges final)
    (h : Records final occurrenceId) : Records state occurrenceId ∨ Schedules alarms occurrenceId := by
  induction steps with
  | nil => exact .inl h
  | cons step rest ih =>
      rcases ih h with middle | scheduled
      · exact step.records middle
      · exact .inr scheduled

theorem ControlStep.records (step : ControlStep state edges final)
    (h : Records final occurrenceId) : Records state occurrenceId := by
  cases step with
  | snoozed held =>
      rcases h.update with same | before
      · exact .inl ⟨_, held, same⟩
      · exact before
  | dismissed reason held => exact Records.closeActive held h

theorem Plans.records (planned : Plans snapshot observation stage edges journal)
    (distinct : (snapshot.alarms.map (·.id)).Nodup) (h : Records journal occurrenceId) :
    Records snapshot.occurrenceState occurrenceId ∨ Schedules snapshot.alarms occurrenceId := by
  rcases planned.cases distinct with step | ⟨-, -, steps⟩ | ⟨-, step⟩
  · exact step.records h
  · exact steps.records h
  · exact .inl (step.records h)

theorem CallEffect.records {stages : CommitStage → Prop} {log : StoreLog} {e : StoreEvent}
    (effect : CallEffect observation stages log e edges)
    (fresh : ¬ Records e.before.journal occurrenceId) (h : Records e.after.journal occurrenceId) :
    Schedules e.after.snapshot.alarms occurrenceId := by
  have commits {stage : CommitStage} {edges : List AlertEdge} {journal : PersistentAlarmState}
      (planned : Plans e.before.snapshot observation stage edges journal)
      (fits : Fits e.before journal e.before.snapshot.revision e.before.generation)
      (after : e.after = e.before.withJournal journal) :
      Schedules e.after.snapshot.alarms occurrenceId := by
    rw [Register.journal_of_loaded fits.loaded] at fresh
    rw [after] at h ⊢
    exact (planned.records fits.distinct h).resolve_left fresh
  cases effect with
  | kept same => exact absurd (same ▸ h) fresh
  | stored _ planned fits after => exact commits planned fits after
  | unconfirmed _ planned fits after => exact commits planned fits after
  | repeated _ _ _ _ _ same => exact absurd (same ▸ h) fresh

end

/-- The call journals the occurrence for the first time, as active or as missed. -/
def FirstRecords (e : StoreEvent) (occurrenceId : Text) : Prop :=
  ¬ Records e.before.journal occurrenceId ∧ Records e.after.journal occurrenceId

section

variable {ι : Type} [DecidableEq ι] (callers : ι → Caller) (schedule : List ι) (slots : Slots)

/-- The record evolves along the calls of a pool. -/
theorem poolTrace_evolves :
    (∀ e ∈ poolTrace callers schedule slots, Evolves e.2.before e.2.after) ∧
      (poolTrace callers schedule slots).Pairwise fun f e => Evolves f.2.after e.2.before := by
  rw [poolTrace_register]
  have linked := runPool_linked (performRegister {}) schedule (scanSlots slots)
    fun i => (callers i).program
  have step : ∀ e ∈ (runPool (performRegister {}) schedule (scanSlots slots)
      fun i => (callers i).program).1, Evolves e.2.before e.2.after := by
    intro e mem
    rw [runPool_step _ _ _ _ e mem]
    exact performRegister_evolves {} _ _
  refine ⟨step, ?_⟩
  have pairwise := (linked.related Evolves.refl Evolves.trans fun e mem => by
    obtain ⟨event, he, rfl⟩ := List.mem_map.mp mem
    exact step event he).2.2
  exact List.pairwise_map.mp pairwise

/-- Whatever clients run beside each other: an occurrence is journaled for the first
time only into a record whose own schedule has its alarm enabled, with the alarm id,
the schedule revision and the instant that the occurrence id names
(`makeOccurrenceId_inj`). Where an earlier record does not schedule it, a later
schedule was saved in between. -/
theorem no_stale_admission :
    (∀ e ∈ poolTrace callers schedule slots, ∀ occurrenceId, FirstRecords e.2 occurrenceId →
      Schedules e.2.after.snapshot.alarms occurrenceId) ∧
    (poolTrace callers schedule slots).Pairwise fun f e => ∀ occurrenceId,
      f.2.after.status = .loaded → ¬ Schedules f.2.after.snapshot.alarms occurrenceId →
      FirstRecords e.2 occurrenceId →
        f.2.after.snapshot.revision < e.2.after.snapshot.revision := by
  have admits : ∀ e ∈ poolTrace callers schedule slots, ∀ occurrenceId,
      FirstRecords e.2 occurrenceId → Schedules e.2.after.snapshot.alarms occurrenceId := by
    rintro ⟨i, e⟩ mem occurrenceId ⟨fresh, recorded⟩
    obtain ⟨_, _, _, _, effect, -⟩ := poolTrace_effect callers schedule slots mem
    exact effect.records fresh recorded
  refine ⟨admits, ?_⟩
  obtain ⟨steps, between⟩ := poolTrace_evolves callers schedule slots
  refine between.imp_of_mem ?_
  intro f e _ mem evolves occurrenceId loaded unscheduled first
  have succeeds := (evolves.trans (steps e mem)) loaded
  rcases UInt64.lt_or_eq_of_le succeeds.revision with later | same
  · exact later
  · -- Under the same revision the schedule is the same one.
    have scheduled := admits e mem occurrenceId first
    rw [succeeds.schedule same.symm] at scheduled
    exact absurd scheduled unscheduled

end

end DawnDock
