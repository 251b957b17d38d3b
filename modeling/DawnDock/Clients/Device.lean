import DawnDock.Clients.Programs

/-!
Histories of one device.

A `Device` is the stored slots and the coordinator's memory. `Device.step` performs
one operation alone, `Device.run` a history of them, each store operation meeting
the next faults of a stream. Two ghost fields record what a run did: `history`, the
store operations as loads would have seen them, and `exposed`, the alert edges
since the last boot.

`Device.run_induction` is the induction every claim about histories goes through;
`DeviceOp.meets` is what one operation does.
-/

namespace DawnDock

open AtomicProgram

/-! ### Operations -/

/-- An engine call on the stored journal, to be committed on its own. -/
inductive EngineCall where
  | due (alarmId : Text) (wallUtcSeconds monotonicSeconds : Int64)
  | active (wallUtcSeconds monotonicSeconds : Int64) (bootId : Text)
  | snooze (occurrenceId : Text) (monotonicSeconds durationSeconds : Int64)
  | dismiss (occurrenceId : Text) (alarmDisabled : Bool)
deriving DecidableEq, Repr

def EngineCall.apply (snapshot : ScheduleSnapshot) :
    EngineCall → EvaluationResult × PersistentAlarmState
  | .due alarmId wallUtcSeconds monotonicSeconds =>
      match snapshot.alarms.find? (·.id == alarmId) with
      | none => ({}, snapshot.occurrenceState)
      | some alarm =>
          evaluateDue alarm.definition snapshot.occurrenceState wallUtcSeconds monotonicSeconds true
  | .active wallUtcSeconds monotonicSeconds bootId =>
      activeTransition snapshot.occurrenceState wallUtcSeconds monotonicSeconds bootId
  | .snooze occurrenceId monotonicSeconds durationSeconds =>
      requestSnooze snapshot.occurrenceState occurrenceId monotonicSeconds durationSeconds
  | .dismiss occurrenceId alarmDisabled =>
      dismissActive snapshot.occurrenceState occurrenceId alarmDisabled

def EngineCall.observation : EngineCall → RuntimeTickObservation
  | .due _ wallUtcSeconds monotonicSeconds => ⟨true, wallUtcSeconds, monotonicSeconds, []⟩
  | .active wallUtcSeconds monotonicSeconds bootId =>
      ⟨true, wallUtcSeconds, monotonicSeconds, bootId⟩
  | .snooze .. | .dismiss .. => ⟨true, 0, 0, []⟩

/-- Load, apply the engine call, commit it before its edges are exposed. -/
def commitEngineCall (call : EngineCall) : Program StoreReply (List AlertEdge) := do
  let loaded ← AtomicScheduleStore.load
  if loaded.status ≠ .loaded then return []
  else
    let done := call.apply loaded.snapshot
    match ← commitOccurrenceTransition done.2
        { scheduleRevision := loaded.snapshot.revision, generation := loaded.generation }
        { alarmId := [], result := done.1 } with
    | .error evaluation => return evaluation.edges
    | .ok (_, alarm) => return alarm.result.edges

inductive DeviceOp where
  | tick (observation : RuntimeTickObservation)
  | evaluate (observation : RuntimeTickObservation)
  | reconcile (observation : RuntimeTickObservation)
  | engine (call : EngineCall)
  | disable (alarmId : Text)
  /-- Save a schedule; schedules carry no journal. -/
  | saveSchedule (schedule : ScheduleSnapshot) (expectedRevision : UInt64)
  /-- Restart: only the store survives. -/
  | reboot
deriving DecidableEq

/-- What an operation shows outside: its alert edges, and a tick's status. -/
structure Outcome where
  edges : List AlertEdge := []
  status : Option RuntimeTickStatus := none
deriving DecidableEq, Repr

def DeviceOp.program (coordinator : RuntimeCoordinatorState) :
    DeviceOp → Program StoreReply (Outcome × RuntimeCoordinatorState)
  | .tick observation => do
      let (result, coordinator) ← runRuntimeTick coordinator observation
      return (⟨result.edges, some result.status⟩, coordinator)
  | .evaluate observation => do
      let evaluation ← evaluateCommittedSchedule observation.wallUtcSeconds
        observation.monotonicSeconds observation.timeValid observation.bootId
      return ({ edges := evaluation.edges }, coordinator)
  | .reconcile observation => do
      let recovery ← reconcileAfterTimeValid observation.wallUtcSeconds
        observation.monotonicSeconds observation.timeValid
      return ({ edges := recovery.edges }, coordinator)
  | .engine call => do
      let edges ← commitEngineCall call
      return ({ edges }, coordinator)
  | .disable alarmId => do
      let result ← disableCommittedAlarm alarmId
      return ({ edges := result.edges }, coordinator)
  | .saveSchedule schedule expectedRevision => do
      let _ ← AtomicScheduleStore.save { schedule with occurrenceState := {} } expectedRevision
      return ({}, coordinator)
  | .reboot => return ({}, {})

/-- The observation an operation works under. -/
def DeviceOp.observation : DeviceOp → RuntimeTickObservation
  | .tick observation | .evaluate observation | .reconcile observation => observation
  | .engine call => call.observation
  | .disable _ | .saveSchedule .. | .reboot => ⟨true, 0, 0, []⟩

/-- The observations an operation's calls work under: its own, with or without its
boot id. -/
def DeviceOp.Observes (op : DeviceOp) (observation : RuntimeTickObservation) : Prop :=
  observation.bootId = op.observation.bootId ∨ observation.bootId = []

theorem booted_bootId (observation : RuntimeTickObservation) (bootPending : Bool) :
    (observation.booted bootPending).bootId = observation.bootId ∨
      (observation.booted bootPending).bootId = [] := by
  cases bootPending with
  | true => exact .inl rfl
  | false => exact .inr rfl

/-! ### Devices -/

structure Device where
  coordinator : RuntimeCoordinatorState := {}
  /-- How many store operations were performed. -/
  operations : ℕ := 0
  slots : Slots := {}
  /-- Every store operation, with the records loads would return around it. -/
  history : StoreLog := []
  /-- The alert edges exposed since the last boot. -/
  exposed : List AlertEdge := []

def Device.current (device : Device) : Register := scanSlots device.slots

/-- The store operations of one device operation. -/
def Device.calls (faults : ℕ → StorageFaults) (device : Device) (op : DeviceOp) : StoreLog :=
  (events (faultyStore faults) (op.program device.coordinator)
    (device.operations, device.slots)).map (Event.mapState durable)

def Device.result (faults : ℕ → StorageFaults) (device : Device) (op : DeviceOp) :
    (Outcome × RuntimeCoordinatorState) × ℕ × Slots :=
  exec (faultyStore faults) (op.program device.coordinator) (device.operations, device.slots)

def Device.outcome (faults : ℕ → StorageFaults) (device : Device) (op : DeviceOp) : Outcome :=
  (device.result faults op).1.1

def Device.step (faults : ℕ → StorageFaults) (device : Device) (op : DeviceOp) : Device where
  coordinator := (device.result faults op).1.2
  operations := (device.result faults op).2.1
  slots := (device.result faults op).2.2
  history := device.history ++ device.calls faults op
  exposed := if op = .reboot then [] else device.exposed ++ (device.outcome faults op).edges

def Device.run (faults : ℕ → StorageFaults) (device : Device) (ops : List DeviceOp) : Device :=
  ops.foldl (Device.step faults) device

theorem Device.run_induction {faults : ℕ → StorageFaults} {motive : Device → Prop}
    {device : Device} {ops : List DeviceOp} (start : motive device)
    (step : ∀ device, ∀ op ∈ ops, motive device → motive (device.step faults op)) :
    motive (device.run faults ops) := by
  induction ops generalizing device with
  | nil => exact start
  | cons op rest ih =>
      exact ih (step device op List.mem_cons_self start)
        fun device op later => step device op (List.mem_cons_of_mem _ later)

theorem Device.run_append (faults : ℕ → StorageFaults) (device : Device)
    (ops more : List DeviceOp) :
    device.run faults (ops ++ more) = (device.run faults ops).run faults more :=
  List.foldl_append

/-! ### What one operation does -/

theorem Device.calls_along (faults : ℕ → StorageFaults) (device : Device) (op : DeviceOp) :
    Along StoreRely [] (device.calls faults op) :=
  (faultyStore_serves faults).along_exec _ _

theorem Device.calls_linked (faults : ℕ → StorageFaults) (device : Device) (op : DeviceOp) :
    Linked device.current (device.calls faults op) (device.step faults op).current :=
  (events_linked (faultyStore faults) (op.program device.coordinator)
    (device.operations, device.slots)).mapState durable

/-- The stages of an engine call. -/
def EngineCall.stages : EngineCall → CommitStage → Prop
  | .due .., stage | .active .., stage => evaluatorStage stage
  | .snooze .., stage | .dismiss .., stage => stage = .control

theorem ControlTransition.plans {snapshot : ScheduleSnapshot}
    {observation : RuntimeTickObservation} {done : EvaluationResult × PersistentAlarmState}
    (h : ControlTransition snapshot.occurrenceState done)
    (usable : done.1.persistBeforeEffects = true → done.1.status ≠ .invalidTime) :
    EvaluatorPlans snapshot observation (· = .control) done := by
  rcases h with nothing | ⟨persists, step⟩
  · exact .inl nothing
  · exact .inr ⟨persists, usable persists, .control, rfl, rfl,
      .control rfl (.inr ⟨persists, step⟩) persists⟩

theorem EngineCall.plans (call : EngineCall) (snapshot : ScheduleSnapshot) :
    EvaluatorPlans snapshot call.observation call.stages (call.apply snapshot) := by
  cases call with
  | due alarmId wallUtcSeconds monotonicSeconds =>
      simp only [EngineCall.apply]
      split
      · exact .inl ⟨rfl, rfl, rfl⟩
      · rename_i alarm found
        exact @evaluateDue_plans snapshot ⟨true, wallUtcSeconds, monotonicSeconds, []⟩ alarm
          (List.mem_of_find?_eq_some found)
  | active wallUtcSeconds monotonicSeconds bootId =>
      exact activeTransition_plans snapshot ⟨true, wallUtcSeconds, monotonicSeconds, bootId⟩
  | snooze occurrenceId monotonicSeconds durationSeconds =>
      refine ControlTransition.plans (requestSnooze_transition _ _ _ _) ?_
      simp only [EngineCall.apply, requestSnooze]
      repeat' split
      all_goals simp [invalidTimeResult]
  | dismiss occurrenceId alarmDisabled =>
      refine ControlTransition.plans (dismissActive_transition _ _ _) ?_
      simp only [EngineCall.apply, dismissActive]
      repeat' split
      all_goals simp

theorem meets_commitEngineCall (call : EngineCall) (log : StoreLog) :
    Meets StoreRely (fun edges log' => Exposing call.observation call.stages log edges log')
      (commitEngineCall call) log := by
  unfold commitEngineCall
  refine (meets_load call.observation call.stages log).bind ?_
  rintro loaded log' ⟨exposing, shows⟩
  split
  · exact exposing
  rename_i isLoaded
  obtain ⟨sees, -⟩ := shows (not_not.mp isLoaded)
  refine (meets_commitOccurrenceTransition loaded.snapshot sees rfl (call.plans _) rfl).bind ?_
  rintro (after | ⟨after, alarm⟩) log'' progress
  · obtain ⟨edges, exposing', reported⟩ := progress
    show Exposing call.observation call.stages log after.edges log''
    rw [reported]
    exact exposing.trans exposing'
  · exact exposing.trans progress.1

/-- What an operation exposes, given the log of its own calls. -/
def DeviceOp.Progress (op : DeviceOp) (coordinator : RuntimeCoordinatorState)
    (done : Outcome × RuntimeCoordinatorState) (log : StoreLog) : Prop :=
  match op with
  | .tick observation => ∃ result, done.1 = ⟨result.edges, some result.status⟩ ∧
      TickProgress coordinator observation [] (result, done.2) log
  | .reboot => done = ({}, {}) ∧ log = []
  | .engine call => done.2 = coordinator ∧
      Exposing call.observation call.stages [] done.1.edges log
  | .evaluate observation => done.2 = coordinator ∧
      Exposing observation evaluatorStage [] done.1.edges log
  | .reconcile observation => done.2 = coordinator ∧
      Exposing observation (· = .reconcile) [] done.1.edges log
  | .disable _ => done.2 = coordinator ∧
      Exposing op.observation (· = .disable) [] done.1.edges log
  | .saveSchedule .. => done = ({}, coordinator) ∧
      Exposing op.observation (fun _ => False) [] [] log

theorem DeviceOp.meets (op : DeviceOp) (coordinator : RuntimeCoordinatorState) :
    Meets StoreRely (op.Progress coordinator) (op.program coordinator) [] := by
  cases op with
  | tick observation =>
      refine (meets_runRuntimeTick coordinator observation []).bind ?_
      rintro ⟨result, coordinator'⟩ log progress
      exact ⟨result, rfl, progress⟩
  | evaluate observation =>
      refine (meets_evaluateCommittedSchedule observation.timeValid).bind ?_
      intro evaluation log exposing
      exact ⟨rfl, exposing⟩
  | reconcile observation =>
      refine (meets_reconcileAfterTimeValid observation.timeValid).bind ?_
      rintro recovery log ⟨exposing, -⟩
      exact ⟨rfl, exposing⟩
  | engine call =>
      refine (meets_commitEngineCall call []).bind ?_
      intro edges log exposing
      exact ⟨rfl, exposing⟩
  | disable alarmId =>
      refine (meets_disableCommittedAlarm alarmId ⟨true, 0, 0, []⟩ []).bind ?_
      intro result log exposing
      exact ⟨rfl, exposing⟩
  | saveSchedule schedule expectedRevision =>
      refine (meets_save ⟨true, 0, 0, []⟩ (fun _ => False) (.inl rfl)).bind ?_
      intro _ log exposing
      exact ⟨rfl, exposing⟩
  | reboot => exact ⟨rfl, rfl⟩

theorem Device.progress (faults : ℕ → StorageFaults) (device : Device) (op : DeviceOp) :
    op.Progress device.coordinator (device.result faults op).1 (device.calls faults op) :=
  (op.meets device.coordinator).exec durable (device.calls_along faults op)

/-! ### Devices over the register -/

/-- A device whose store is the register. -/
structure RegisterDevice where
  coordinator : RuntimeCoordinatorState := {}
  operations : ℕ := 0
  current : Register := {}
  history : StoreLog := []
  exposed : List AlertEdge := []

/-- The register whose `n`-th operation meets the `n`-th faults. -/
def faultyRegister (faults : ℕ → StorageFaults) : Object StoreReply (ℕ × Register) :=
  withStream fun n => performRegister (faults n)

def RegisterDevice.result (faults : ℕ → StorageFaults) (device : RegisterDevice)
    (op : DeviceOp) : (Outcome × RuntimeCoordinatorState) × ℕ × Register :=
  exec (faultyRegister faults) (op.program device.coordinator) (device.operations, device.current)

def RegisterDevice.calls (faults : ℕ → StorageFaults) (device : RegisterDevice)
    (op : DeviceOp) : StoreLog :=
  (events (faultyRegister faults) (op.program device.coordinator)
    (device.operations, device.current)).map (Event.mapState Prod.snd)

def RegisterDevice.step (faults : ℕ → StorageFaults) (device : RegisterDevice)
    (op : DeviceOp) : RegisterDevice where
  coordinator := (device.result faults op).1.2
  operations := (device.result faults op).2.1
  current := (device.result faults op).2.2
  history := device.history ++ device.calls faults op
  exposed :=
    if op = .reboot then [] else device.exposed ++ (device.result faults op).1.1.edges

def RegisterDevice.run (faults : ℕ → StorageFaults) (device : RegisterDevice)
    (ops : List DeviceOp) : RegisterDevice := ops.foldl (RegisterDevice.step faults) device

/-- The device as loads see its store. -/
def Device.view (device : Device) : RegisterDevice where
  coordinator := device.coordinator
  operations := device.operations
  current := device.current
  history := device.history
  exposed := device.exposed

theorem Device.view_current (device : Device) : device.view.current = device.current := rfl

theorem Device.view_exposed (device : Device) : device.view.exposed = device.exposed := rfl

theorem Device.view_history (device : Device) : device.view.history = device.history := rfl

theorem faultyStore_simulates (faults : ℕ → StorageFaults) :
    Simulates (faultyStore faults) (faultyRegister faults) (Prod.map id scanSlots) :=
  Simulates.withStream fun n => performStore_simulates (faults n)

theorem Device.result_view (faults : ℕ → StorageFaults) (device : Device) (op : DeviceOp) :
    device.view.result faults op =
      ((device.result faults op).1, (device.result faults op).2.1,
        scanSlots (device.result faults op).2.2) :=
  (faultyStore_simulates faults).exec (op.program device.coordinator)
    (device.operations, device.slots)

theorem Device.calls_view (faults : ℕ → StorageFaults) (device : Device) (op : DeviceOp) :
    device.view.calls faults op = device.calls faults op := by
  have run : _ = events (faultyRegister faults) (op.program device.view.coordinator)
      (device.view.operations, device.view.current) :=
    (faultyStore_simulates faults).events (op.program device.coordinator)
      (device.operations, device.slots)
  rw [RegisterDevice.calls, Device.calls, ← run, List.map_map]
  rfl

/-- A device refines the device over the register. -/
theorem Device.step_view (faults : ℕ → StorageFaults) (device : Device) (op : DeviceOp) :
    (device.step faults op).view = device.view.step faults op := by
  simp only [RegisterDevice.step, Device.result_view, Device.calls_view]
  rfl

theorem Device.run_view (faults : ℕ → StorageFaults) (device : Device) (ops : List DeviceOp) :
    (device.run faults ops).view = device.view.run faults ops := by
  induction ops generalizing device with
  | nil => rfl
  | cons op rest ih =>
      refine (ih (device.step faults op)).trans ?_
      rw [Device.step_view]
      rfl

end DawnDock
