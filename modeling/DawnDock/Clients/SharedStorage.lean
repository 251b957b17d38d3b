import DawnDock.Clients.Rely
import DawnDock.NvsSlotStorage
import DawnDock.ScheduleStore.Atomicity

/-!
Clients of the store that share the NVS partition.

Every task runs a client of `AtomicScheduleStore` on an adapter of its own or a shared one.
Between any two calls of a task, inside a transaction or not, the others may run.

* `nvs_store_serial`: whatever the tasks see, they see where each store operation is one
  atomic step of `performStore`, under some faults.
* `uncertain_nvs_refuses`: after a failed write every store operation is refused.
-/

namespace DawnDock

open AtomicProgram AtomicScheduleStore

section

variable {Task Adapter : Type} [DecidableEq Task] [DecidableEq Adapter] {β : Task → Type}

/-- A client of the store, as the calls it makes on its storage. -/
def storageCalls {α : Type} (client : Program StoreReply α) : Program (LockReply SlotReply) α :=
  expand (lockedOp transaction inactive) client

/-- One store operation in one step. -/
theorem atomically_performStore {before after : SlotContents} {c : StoreCall}
    {reply : StoreReply c}
    (step : Atomically transaction inactive slotResource before c reply after) :
    ∃ faults, performStore faults before.slots c = (reply, after.slots) := by
  rcases step with ⟨rfl, rfl⟩ | runs
  · exact ⟨{ transactionRefused := true }, inactive_performStore after.slots c⟩
  · obtain ⟨faults, -, performed⟩ := runs_performStore runs
    exact ⟨faults, performed⟩

theorem reaches_performStore {before after : SlotContents} {clients later : Pool StoreReply β}
    (reaches : PoolReaches (fun _ => Atomically transaction inactive slotResource) before clients
      after later) :
    PoolReaches (fun _ slots c reply slots' => ∃ faults, performStore faults slots c =
      (reply, slots')) before.slots clients after.slots later := by
  induction reaches with
  | refl => exact .refl
  | call _ atCall answered ih => exact ih.call atCall (atomically_performStore answered)

/-- However the calls of the tasks fall between each other, and whatever the storage does to
them: there is a run of whole store operations, one after another under some faults, in which
every task has come as far. A task outside a transaction stands where its client does there,
and the slots hold what they hold there unless a transaction is open. -/
theorem nvs_store_serial (adapters : Task → Adapter) {partition later : NvsPartition Task Adapter}
    {clients : Pool StoreReply β} {threads : Pool (LockReply SlotReply) β}
    (unlocked : partition.lock = none) (idle : partition.transactionOwner = none)
    (reaches : PoolReaches (nvsStep adapters) partition (fun task => storageCalls (clients task))
      later threads) :
    ∃ (schedule : List Task) (faults : ℕ → StorageFaults),
      let serial := runPool (faultyStore faults) schedule (0, partition.slots) clients
      (later.lock = none → later.slots = serial.2.1.2) ∧
        (∀ task, later.lock ≠ some task → threads task = storageCalls (serial.2.2 task)) ∧
        ∀ task result, threads task = .done result →
          serial.2.2 task = .done result ∧ later.lock ≠ some task := by
  have owned : partition.Owned adapters := by
    refine ⟨fun task held => ?_, fun _ => idle⟩
    rw [unlocked] at held
    cases held
  obtain ⟨t, rest, steps, serial⟩ := exclusive_serial (exclusive_nvs adapters) owned unlocked reaches
  obtain ⟨schedule, faults, slots, programs⟩ := (reaches_performStore steps).runs ({} : StorageFaults)
  refine ⟨schedule, faults, ?_, ?_, ?_⟩
  · intro free
    exact (congrArg SlotContents.slots (serial.settled free)).trans slots.symm
  · intro task away
    have same : (runPool (faultyStore faults) schedule (0, partition.slots) clients).2.2 = rest :=
      programs
    rw [same]
    exact (serial.stands task).of_free away
  · intro task result returned
    have same : (runPool (faultyStore faults) schedule (0, partition.slots) clients).2.2 = rest :=
      programs
    have stands := serial.stands task
    rw [returned] at stands
    rw [same]
    exact stands.returned

/-- Two tasks on one adapter; the second is refused while the first is loading. -/
theorem nvs_store_serial_pair :
    ∃ (schedule : List Bool) (faults : ℕ → StorageFaults),
      (runPool (faultyStore faults) schedule (0, ({} : Slots))
        fun _ : Bool => AtomicScheduleStore.load).2.2 true = .done { status := .ioError } := by
  let start : NvsPartition Bool Unit := { initialized := true, slots := {} }
  let locked : NvsPartition Bool Unit :=
    { start with transactionOwner := some (), lock := some false }
  let clients : Pool StoreReply fun _ : Bool => LoadResult := fun _ => AtomicScheduleStore.load
  have first : nvsStep (fun _ : Bool => ()) false start .acquire true locked := ⟨{}, rfl⟩
  have second : nvsStep (fun _ : Bool => ()) true locked .acquire false locked := ⟨{}, rfl⟩
  have begun : PoolReaches (nvsStep fun _ : Bool => ()) start
      (fun task => storageCalls (clients task)) start fun task => storageCalls (clients task) :=
    .refl
  obtain ⟨schedule, faults, -, -, returned⟩ := nvs_store_serial (fun _ => ()) rfl rfl
    ((begun.call (i := false) rfl first).call (i := true) rfl second)
  exact ⟨schedule, faults, (returned true _ rfl).1⟩

theorem reaches_refused {before after : SlotContents} {clients later : Pool StoreReply β}
    (reaches : PoolReaches (fun _ => Atomically transaction inactive fun _ _ _ _ => False) before
      clients after later) :
    PoolReaches (fun _ slots c reply slots' => ∃ _ : Unit,
      performStore { transactionRefused := true } slots c = (reply, slots')) before.slots clients
        after.slots later := by
  induction reaches with
  | refl => exact .refl
  | @call i c next reply u u' others _ atCall answered ih =>
      refine ih.call atCall ⟨(), ?_⟩
      rcases answered with ⟨rfl, rfl⟩ | runs
      · exact inactive_performStore u'.slots c
      · -- No operation gets as far as its first call.
        cases c with
        | load | migrateToCurrentSchema | save | saveOccurrenceState =>
            obtain ⟨-, -, never, -⟩ := runs_call.mp runs
            exact never.elim

/-- The partition once a write has failed: nobody gets the lock. -/
theorem exclusive_uncertain (adapters : Task → Adapter) (slots : Slots) :
    Exclusive (nvsStep adapters)
      (fun partition => partition.writeUncertain = true ∧ partition.lock = none ∧
        partition.slots = slots)
      NvsPartition.lock NvsPartition.contents fun _ _ _ _ => False where
  kept {task before after c reply} := by
    rintro ⟨uncertain, unlocked, rfl⟩ ⟨conditions, performed⟩
    obtain ⟨refused, kept, still⟩ :=
      NvsEvent.after_uncertain uncertain (.call task (adapters task) conditions c)
    have same : NvsEvent.after before (.call task (adapters task) conditions c) = after :=
      congrArg Prod.snd performed
    rw [same] at kept still
    refine ⟨still, ?_, kept⟩
    cases c with
    | acquire =>
        have turnedDown : reply = false := (congrArg Prod.fst performed).symm.trans refused
        subst turnedDown
        rw [beginTransaction_false performed]
        exact unlocked
    | release =>
        rw [← same, NvsEvent.after, NvsSlotStorage.perform, NvsSlotStorage.endTransaction]
        split
        · exact unlocked
        · rfl
    | access c =>
        cases c with
        | read slot => exact same ▸ unlocked
        | write slot bytes => exact (write_own performed).1.trans unlocked
  acquired {task before after} := by
    rintro ⟨uncertain, -, -⟩ ⟨conditions, performed⟩
    obtain ⟨-, -, -, certain, -⟩ := beginTransaction_true performed
    rw [uncertain] at certain
    cases certain
  refused _ := by
    rintro ⟨conditions, performed⟩
    obtain rfl := beginTransaction_false performed
    exact ⟨rfl, rfl⟩
  accessed := by
    rintro task before after c reply ⟨-, unlocked, -⟩ held
    rw [unlocked] at held
    cases held
  released := by
    rintro task before after ⟨-, unlocked, -⟩ held
    rw [unlocked] at held
    cases held

/-- After a failed write, until the next boot: no slot changes, and every store operation is
refused, whatever the tasks do. -/
theorem uncertain_nvs_refuses (adapters : Task → Adapter)
    {partition later : NvsPartition Task Adapter} {clients : Pool StoreReply β}
    {threads : Pool (LockReply SlotReply) β} (uncertain : partition.writeUncertain = true)
    (unlocked : partition.lock = none)
    (reaches : PoolReaches (nvsStep adapters) partition (fun task => storageCalls (clients task))
      later threads) :
    later.slots = partition.slots ∧ ∃ schedule,
      let serial := runPool (faultyStore fun _ => { transactionRefused := true }) schedule
        (0, partition.slots) clients
      ∀ task, threads task = storageCalls (serial.2.2 task) := by
  have exclusive := exclusive_uncertain adapters partition.slots
  obtain ⟨-, free, kept⟩ := reaches.invariant ⟨uncertain, unlocked, rfl⟩ fun _ _ _ _ _ =>
    exclusive.kept
  obtain ⟨t, rest, steps, serial⟩ :=
    exclusive_serial exclusive ⟨uncertain, unlocked, rfl⟩ unlocked reaches
  obtain ⟨schedule, -, -, programs⟩ := (reaches_refused steps).runs ()
  refine ⟨kept, schedule, fun task => ?_⟩
  have same : (runPool (faultyStore fun _ => { transactionRefused := true }) schedule
      (0, partition.slots) clients).2.2 = rest := programs
  rw [same]
  refine (serial.stands task).of_free ?_
  rw [free]
  simp

/-- One task loads the schedule, the other one saves the next. -/
def loadAndSave : Pool StoreReply fun _ : Bool => Bool
  | false => do
      return (← AtomicScheduleStore.load).status = .loaded
  | true => do
      let saved ← AtomicScheduleStore.save { oneAlarmSchedule with revision := 2, alarms := [] } 1
      return saved.status.committed

/-- Two tasks, of which one saves, after a failed write: both fail, and the record stays. -/
theorem uncertain_nvs_refuses_save :
    let start : NvsPartition Bool Unit :=
      { initialized := true, writeUncertain := true, slots := oneAlarmStore }
    ∃ (later : NvsPartition Bool Unit) (threads : Pool (LockReply SlotReply) fun _ : Bool => Bool)
      (schedule : List Bool),
      PoolReaches (nvsStep fun _ : Bool => ()) start (fun task => storageCalls (loadAndSave task))
          later threads ∧
        (∀ task, threads task = .done false) ∧ later.slots = oneAlarmStore ∧
        ∀ task, storageCalls ((runPool (faultyStore fun _ => { transactionRefused := true })
          schedule (0, oneAlarmStore) loadAndSave).2.2 task) = .done false := by
  -- The refusal does not look at the slots.
  generalize oneAlarmStore = slots
  intro start
  have first : nvsStep (fun _ : Bool => ()) false start .acquire false start := ⟨{}, rfl⟩
  have second : nvsStep (fun _ : Bool => ()) true start .acquire false start := ⟨{}, rfl⟩
  have begun : PoolReaches (nvsStep fun _ : Bool => ()) start
      (fun task => storageCalls (loadAndSave task)) start
      fun task => storageCalls (loadAndSave task) := .refl
  have reaches := (begun.call (i := false) rfl first).call (i := true) rfl second
  have uncertain : start.writeUncertain = true := rfl
  have unlocked : start.lock = none := rfl
  obtain ⟨kept, schedule, programs⟩ :=
    uncertain_nvs_refuses (fun _ => ()) uncertain unlocked reaches
  refine ⟨start, _, schedule, reaches, ?_, kept, fun task => (programs task).symm.trans ?_⟩
  · intro task
    cases task <;> rfl
  · cases task <;> rfl

end

end DawnDock
