import DawnDock.ScheduleStore.SlotStorage
import Mathlib.Data.List.Induction

/-!
The slot storage on the NVS partition (`nvs_slot_storage.cpp`).

One lock guards the partition, not one for each adapter. A transaction retains it, so the
task that began a transaction is the only one whose calls get past the lock, and its adapter
the only one that reads and writes (`exclusive_nvs`). A write that fails leaves the partition
uncertain, and nothing but a reboot clears that (`nvs_run_sound`).

The NVS library and the other tasks are the conditions a call meets.
-/

namespace DawnDock

open ByteCodec AtomicProgram

def espOk : Int32 := 0
def espErrInvalidState : Int32 := 0x103

/-- What a call meets: whether another task is inside a call, and what the calls into the
library give. A failed write may have changed the blob. -/
structure NvsConditions where
  contended : Bool := false
  initialized : Int32 := espOk
  openFails : Bool := false
  readFails : Bool := false
  failedWrite : Option WriteEffect := none

/-- The state behind the adapters, within a boot. -/
structure NvsPartition (Task Adapter : Type) where
  initialized : Bool := false
  /-- The task that retains `partition_mutex`. -/
  lock : Option Task := none
  transactionOwner : Option Adapter := none
  writeUncertain : Bool := false
  slots : Slots

namespace NvsSlotStorage

variable {Task Adapter : Type} [DecidableEq Task]

/-- `TryLock`: the mutex is recursive. -/
def tryLock (conditions : NvsConditions) (task : Task) (partition : NvsPartition Task Adapter) :
    Bool :=
  match partition.lock with
  | some holder => holder = task
  | none => !conditions.contended

/-- `initialize` -/
def initializeStorage (conditions : NvsConditions) (task : Task)
    (partition : NvsPartition Task Adapter) : Int32 × NvsPartition Task Adapter :=
  if !tryLock conditions task partition || partition.transactionOwner.isSome ||
      partition.writeUncertain then (espErrInvalidState, partition)
  else if partition.initialized then (espOk, partition)
  else
    (conditions.initialized,
      { partition with initialized := conditions.initialized == espOk })

def beginTransaction (conditions : NvsConditions) (task : Task) (adapter : Adapter)
    (partition : NvsPartition Task Adapter) : Bool × NvsPartition Task Adapter :=
  if !tryLock conditions task partition || !partition.initialized ||
      partition.transactionOwner.isSome || partition.writeUncertain then (false, partition)
  else if conditions.openFails then (false, partition)
  else (true, { partition with transactionOwner := some adapter, lock := some task })

variable [DecidableEq Adapter]

/-- The destructor of an adapter calls it too. -/
def endTransaction (conditions : NvsConditions) (task : Task) (adapter : Adapter)
    (partition : NvsPartition Task Adapter) : NvsPartition Task Adapter :=
  if !tryLock conditions task partition || partition.transactionOwner ≠ some adapter then partition
  else { partition with transactionOwner := none, lock := none }

def read (conditions : NvsConditions) (task : Task) (adapter : Adapter)
    (partition : NvsPartition Task Adapter) (slot : StorageSlot) : SlotReadResult :=
  if !tryLock conditions task partition || partition.transactionOwner ≠ some adapter ||
      partition.writeUncertain then .ioError
  else if conditions.readFails then .ioError
  else
    match partition.slots.get slot with
    | none => .empty
    | some bytes =>
        if bytes.length > kMaximumStorageRecordBytes then .ioError else .present bytes

def write (conditions : NvsConditions) (task : Task) (adapter : Adapter)
    (partition : NvsPartition Task Adapter) (slot : StorageSlot) (bytes : Bytes) :
    Bool × NvsPartition Task Adapter :=
  if !tryLock conditions task partition || partition.transactionOwner ≠ some adapter ||
      partition.writeUncertain || bytes.isEmpty || bytes.length > kMaximumStorageRecordBytes then
    (false, partition)
  else
    match conditions.failedWrite with
    | some effect =>
        (false, { partition with
          slots := effect.apply partition.slots slot bytes, writeUncertain := true })
    | none => (true, { partition with slots := partition.slots.set slot bytes })

/-- A call of `SlotStorage` on an adapter. -/
def perform (conditions : NvsConditions) (task : Task) (adapter : Adapter)
    (partition : NvsPartition Task Adapter) :
    (c : LockCall SlotCall) → LockReply SlotReply c × NvsPartition Task Adapter
  | .acquire => beginTransaction conditions task adapter partition
  | .release => ((), endTransaction conditions task adapter partition)
  | .access (.read slot) => (read conditions task adapter partition slot, partition)
  | .access (.write slot bytes) => write conditions task adapter partition slot bytes

end NvsSlotStorage

/-! ### Exclusion -/

section

open NvsSlotStorage

variable {Task Adapter : Type} [DecidableEq Task] {partition : NvsPartition Task Adapter}
  {conditions : NvsConditions}

section

variable {task : Task} {adapter : Adapter}

def NvsPartition.contents (partition : NvsPartition Task Adapter) : SlotContents :=
  ⟨partition.slots, partition.writeUncertain⟩

theorem tryLock_held {holder : Task} (held : partition.lock = some holder) :
    tryLock conditions task partition = true ↔ holder = task := by
  rw [tryLock, held]
  simp

/-- A transaction begins on a free partition that is initialized and certain. -/
theorem beginTransaction_true {after : NvsPartition Task Adapter}
    (began : beginTransaction conditions task adapter partition = (true, after)) :
    tryLock conditions task partition = true ∧ partition.initialized = true ∧
      partition.transactionOwner = none ∧ partition.writeUncertain = false ∧
      after = { partition with transactionOwner := some adapter, lock := some task } := by
  unfold beginTransaction at began
  split at began
  · cases began
  rename_i free
  split at began
  · cases began
  simp only [Bool.or_eq_true, Bool.not_eq_true', not_or, Bool.not_eq_false, Bool.not_eq_true,
    Option.isSome_eq_false_iff, Option.isNone_iff_eq_none] at free
  cases began
  exact ⟨free.1.1.1, free.1.1.2, free.1.2, free.2, rfl⟩

theorem beginTransaction_false {after : NvsPartition Task Adapter}
    (refused : beginTransaction conditions task adapter partition = (false, after)) :
    after = partition := by
  unfold beginTransaction at refused
  split at refused
  · cases refused
    rfl
  split at refused
  · cases refused
    rfl
  · cases refused

theorem tryLock_other {holder : Task} (held : partition.lock = some holder)
    (other : task ≠ holder) : tryLock conditions task partition = false := by
  rw [← Bool.not_eq_true, tryLock_held held]
  exact other.symm

variable [DecidableEq Adapter]

/-- The transaction's own end. -/
theorem endTransaction_own (held : partition.lock = some task)
    (owner : partition.transactionOwner = some adapter) :
    endTransaction conditions task adapter partition =
      { partition with transactionOwner := none, lock := none } := by
  rw [endTransaction, (tryLock_held held).mpr rfl, owner]
  simp

theorem read_own (held : partition.lock = some task)
    (owner : partition.transactionOwner = some adapter) (slot : StorageSlot) :
    read conditions task adapter partition slot = .ioError ∨
      partition.writeUncertain = false ∧
        read conditions task adapter partition slot =
          slotReadResult (partition.slots.get slot) := by
  rw [NvsSlotStorage.read, (tryLock_held held).mpr rfl, owner]
  cases certain : partition.writeUncertain with
  | true => exact .inl (by simp)
  | false =>
      simp only [Bool.not_true, ne_eq, not_true, decide_false, Bool.or_self, Bool.false_eq_true,
        if_false, true_and]
      split
      · exact .inl rfl
      cases stored : partition.slots.get slot with
      | none => exact .inr rfl
      | some bytes =>
          dsimp only
          split
          · exact .inl rfl
          · exact .inr rfl

theorem write_own {slot : StorageSlot} {bytes : Bytes} {reply : Bool}
    {after : NvsPartition Task Adapter}
    (wrote : NvsSlotStorage.write conditions task adapter partition slot bytes = (reply, after)) :
    after.lock = partition.lock ∧ after.transactionOwner = partition.transactionOwner ∧
      after.initialized = partition.initialized ∧
      slotResource partition.contents (.write slot bytes) reply after.contents := by
  unfold NvsSlotStorage.write at wrote
  split at wrote
  · cases wrote
    exact ⟨rfl, rfl, rfl, .inr ⟨rfl, .inl rfl⟩⟩
  rename_i own
  simp only [Bool.or_eq_true, not_or, Bool.not_eq_true] at own
  have certain : partition.writeUncertain = false := own.1.1.2
  split at wrote
  · rename_i effect _
    cases wrote
    exact ⟨rfl, rfl, rfl, .inr ⟨rfl, .inr ⟨effect, rfl⟩⟩⟩
  · cases wrote
    exact ⟨rfl, rfl, rfl, .inl ⟨rfl, certain, rfl⟩⟩

end

variable [DecidableEq Adapter]

/-- Tasks that each use the storage through an adapter, possibly a shared one. -/
def nvsStep (adapters : Task → Adapter) (task : Task) :
    Resource (LockReply SlotReply) (NvsPartition Task Adapter) := fun before c reply after =>
  ∃ conditions, perform conditions task (adapters task) before c = (reply, after)

/-- A retained lock is the lock of the transaction of its task's adapter. -/
structure NvsPartition.Owned (adapters : Task → Adapter) (partition : NvsPartition Task Adapter) :
    Prop where
  held (task : Task) : partition.lock = some task →
    partition.transactionOwner = some (adapters task)
  free : partition.lock = none → partition.transactionOwner = none

/-- The partition under its lock. -/
theorem exclusive_nvs (adapters : Task → Adapter) :
    Exclusive (nvsStep adapters) (NvsPartition.Owned adapters) NvsPartition.lock
      NvsPartition.contents slotResource where
  kept {task before after c reply} owned := by
    rintro ⟨conditions, performed⟩
    cases c with
    | acquire =>
        cases reply with
        | true =>
            obtain ⟨-, -, -, -, rfl⟩ := beginTransaction_true performed
            refine ⟨fun other held => ?_, fun free => ?_⟩
            · obtain rfl := Option.some.inj held
              rfl
            · cases free
        | false =>
            obtain rfl := beginTransaction_false performed
            exact owned
    | release =>
        obtain rfl : endTransaction conditions task (adapters task) before = after :=
          congrArg Prod.snd performed
        rw [endTransaction]
        split
        · exact owned
        · refine ⟨fun other held => ?_, fun _ => rfl⟩
          cases held
    | access c =>
        cases c with
        | read slot =>
            obtain rfl : before = after := congrArg Prod.snd performed
            exact owned
        | write slot bytes =>
            obtain ⟨lock, owner, -⟩ := write_own performed
            refine ⟨fun other held => ?_, fun free => ?_⟩
            · rw [owner]
              exact owned.held other (lock ▸ held)
            · rw [owner]
              exact owned.free (lock ▸ free)
  acquired {task before after} owned := by
    rintro ⟨conditions, performed⟩
    obtain ⟨-, -, idle, -, rfl⟩ := beginTransaction_true performed
    refine ⟨?_, rfl, rfl⟩
    cases held : before.lock with
    | none => rfl
    | some holder =>
        rw [owned.held holder held] at idle
        cases idle
  refused _ := by
    rintro ⟨conditions, performed⟩
    obtain rfl := beginTransaction_false performed
    exact ⟨rfl, rfl⟩
  accessed {task before after c reply} owned held := by
    rintro ⟨conditions, performed⟩
    cases c with
    | read slot =>
        obtain rfl : before = after := congrArg Prod.snd performed
        obtain rfl : NvsSlotStorage.read conditions task (adapters task) before slot = reply :=
          congrArg Prod.fst performed
        exact ⟨held, rfl, read_own held (owned.held task held) slot⟩
    | write slot bytes =>
        obtain ⟨lock, -, -, wrote⟩ := write_own performed
        exact ⟨lock.trans held, wrote⟩
  released {task before after} owned held := by
    rintro ⟨conditions, performed⟩
    obtain rfl : endTransaction conditions task (adapters task) before = after :=
      congrArg Prod.snd performed
    rw [endTransaction_own held (owned.held task held)]
    exact ⟨rfl, rfl⟩

/-! ### Runs of calls -/

/-- A call of any task, on any adapter. -/
inductive NvsEvent (Task Adapter : Type) where
  | startup (task : Task) (conditions : NvsConditions)
  | call (task : Task) (adapter : Adapter) (conditions : NvsConditions) (c : LockCall SlotCall)

namespace NvsEvent

def task : NvsEvent Task Adapter → Task
  | startup task _ | call task .. => task

def isRelease : NvsEvent Task Adapter → Bool
  | call _ _ _ .release => true
  | _ => false

def after (partition : NvsPartition Task Adapter) : NvsEvent Task Adapter → NvsPartition Task Adapter
  | startup task conditions => (initializeStorage conditions task partition).2
  | call task adapter conditions c => (perform conditions task adapter partition c).2

/-- The answer that turns a call down; the end of a transaction has none. -/
def refusedBy (partition : NvsPartition Task Adapter) : NvsEvent Task Adapter → Prop
  | startup task conditions => (initializeStorage conditions task partition).1 = espErrInvalidState
  | call task adapter conditions .acquire =>
      (perform conditions task adapter partition .acquire).1 = false
  | call _ _ _ .release => True
  | call task adapter conditions (.access (.read slot)) =>
      (perform conditions task adapter partition (.access (.read slot))).1 = .ioError
  | call task adapter conditions (.access (.write slot bytes)) =>
      (perform conditions task adapter partition (.access (.write slot bytes))).1 = false

end NvsEvent

def NvsPartition.run (partition : NvsPartition Task Adapter) (events : List (NvsEvent Task Adapter)) :
    NvsPartition Task Adapter :=
  events.foldl NvsEvent.after partition

/-- While one task retains the lock, the calls of the others leave everything as it is. -/
theorem NvsEvent.after_other {holder : Task} {event : NvsEvent Task Adapter}
    (held : partition.lock = some holder) (other : event.task ≠ holder) :
    event.after partition = partition := by
  cases event with
  | startup task conditions =>
      have refused : tryLock conditions task partition = false := tryLock_other held other
      rw [NvsEvent.after, initializeStorage, refused]
      rfl
  | call task adapter conditions c =>
      have refused : tryLock conditions task partition = false := tryLock_other held other
      cases c with
      | acquire =>
          rw [NvsEvent.after, perform, beginTransaction, refused]
          rfl
      | release =>
          rw [NvsEvent.after, perform, endTransaction, refused]
          rfl
      | access c =>
          cases c with
          | read slot => rfl
          | write slot bytes =>
              rw [NvsEvent.after, perform, NvsSlotStorage.write, refused]
              rfl

/-- A task keeps the lock until it ends a transaction. -/
theorem NvsEvent.after_lock {event : NvsEvent Task Adapter}
    (held : partition.lock = some event.task) (keeps : event.isRelease = false) :
    (event.after partition).lock = some event.task := by
  cases event with
  | startup task conditions =>
      rw [NvsEvent.after, initializeStorage]
      split
      · exact held
      split
      · exact held
      · exact held
  | call task adapter conditions c =>
      cases c with
      | acquire =>
          generalize performed : beginTransaction conditions task adapter partition = done
          obtain ⟨began, after⟩ := done
          change (beginTransaction conditions task adapter partition).2.lock = some task
          rw [performed]
          cases began with
          | true =>
              obtain ⟨-, -, -, -, rfl⟩ := beginTransaction_true performed
              rfl
          | false =>
              obtain rfl := beginTransaction_false performed
              exact held
      | release => cases keeps
      | access c =>
          cases c with
          | read slot => exact held
          | write slot bytes =>
              generalize performed :
                NvsSlotStorage.write conditions task adapter partition slot bytes = done
              obtain ⟨reply, after⟩ := done
              obtain ⟨lock, -⟩ := write_own performed
              change (NvsSlotStorage.write conditions task adapter partition slot bytes).2.lock = _
              rw [performed]
              exact lock.trans held

/-- The lock is retained as long as a transaction is open. -/
theorem NvsEvent.after_owner (event : NvsEvent Task Adapter)
    (balanced : partition.lock.isSome = partition.transactionOwner.isSome) :
    (event.after partition).lock.isSome = (event.after partition).transactionOwner.isSome := by
  cases event with
  | startup task conditions =>
      rw [NvsEvent.after, initializeStorage]
      split
      · exact balanced
      split
      · exact balanced
      · exact balanced
  | call task adapter conditions c =>
      cases c with
      | acquire =>
          rw [NvsEvent.after, perform, beginTransaction]
          split
          · exact balanced
          split
          · exact balanced
          · rfl
      | release =>
          rw [NvsEvent.after, perform, endTransaction]
          split
          · exact balanced
          · rfl
      | access c =>
          cases c with
          | read slot => exact balanced
          | write slot bytes =>
              generalize performed :
                NvsSlotStorage.write conditions task adapter partition slot bytes = done
              obtain ⟨reply, after⟩ := done
              obtain ⟨lock, owner, -⟩ := write_own performed
              rw [NvsEvent.after, perform, performed]
              rw [lock, owner]
              exact balanced

/-- A partition left uncertain turns every call down, and stays as it is. -/
theorem NvsEvent.after_uncertain (uncertain : partition.writeUncertain = true)
    (event : NvsEvent Task Adapter) :
    event.refusedBy partition ∧ (event.after partition).slots = partition.slots ∧
      (event.after partition).writeUncertain = true := by
  cases event with
  | startup task conditions =>
      simp [NvsEvent.refusedBy, NvsEvent.after, initializeStorage, uncertain]
  | call task adapter conditions c =>
      cases c with
      | acquire => simp [NvsEvent.refusedBy, NvsEvent.after, perform, beginTransaction, uncertain]
      | release =>
          refine ⟨trivial, ?_⟩
          rw [NvsEvent.after, perform, endTransaction]
          split
          · exact ⟨rfl, uncertain⟩
          · exact ⟨rfl, uncertain⟩
      | access c =>
          cases c with
          | read slot =>
              simp [NvsEvent.refusedBy, NvsEvent.after, perform, NvsSlotStorage.read, uncertain]
          | write slot bytes =>
              simp [NvsEvent.refusedBy, NvsEvent.after, perform, NvsSlotStorage.write, uncertain]

/-- Since boot, whatever tasks call on whatever adapters: the lock is retained just while a
transaction is open. What happens until its task ends it is what that task's own calls do.
And once a write has failed, every call is turned down and no slot changes again. -/
theorem nvs_run_sound {start : NvsPartition Task Adapter} (unlocked : start.lock = none)
    (idle : start.transactionOwner = none) (events : List (NvsEvent Task Adapter)) :
    let partition := start.run events
    partition.lock.isSome = partition.transactionOwner.isSome ∧
      (∀ task, partition.lock = some task → ∀ more : List (NvsEvent Task Adapter),
        (∀ event ∈ more, event.task = task → event.isRelease = false) →
          partition.run more = partition.run (more.filter (·.task = task))) ∧
      (partition.writeUncertain = true → ∀ more : List (NvsEvent Task Adapter),
        (partition.run more).slots = partition.slots ∧
          ∀ event : NvsEvent Task Adapter, event.refusedBy (partition.run more)) := by
  have balanced (events : List (NvsEvent Task Adapter)) :
      (start.run events).lock.isSome = (start.run events).transactionOwner.isSome := by
    induction events using List.reverseRecOn with
    | nil => simp [NvsPartition.run, unlocked, idle]
    | append_singleton events event ih =>
        rw [NvsPartition.run, List.foldl_concat]
        exact event.after_owner ih
  refine ⟨balanced events, ?_, ?_⟩
  · intro task held more keeps
    generalize start.run events = partition at held
    induction more generalizing partition with
    | nil => rfl
    | cons event rest ih =>
        have later := fun e mem => keeps e (List.mem_cons_of_mem _ mem)
        by_cases own : event.task = task
        · have still := event.after_lock (own ▸ held) (keeps event List.mem_cons_self own)
          rw [List.filter_cons_of_pos (by simpa using own)]
          exact ih later _ (own ▸ still)
        · rw [List.filter_cons_of_neg (by simpa using own)]
          have same := NvsEvent.after_other held own
          change (event.after partition).run rest = _
          rw [same]
          exact ih later partition held
  · intro uncertain more
    have stays : ((start.run events).run more).slots = (start.run events).slots ∧
        ((start.run events).run more).writeUncertain = true := by
      induction more using List.reverseRecOn with
      | nil => exact ⟨rfl, uncertain⟩
      | append_singleton more event ih =>
          obtain ⟨slots, still⟩ := ih
          obtain ⟨-, kept, remains⟩ := NvsEvent.after_uncertain still event
          rw [NvsPartition.run, List.foldl_concat]
          exact ⟨kept.trans slots, remains⟩
    exact ⟨stays.1, fun event => (NvsEvent.after_uncertain stays.2 event).1⟩

/-- A write fails inside the transaction of a task: every later call is turned down. -/
theorem nvs_run_sound_failed_write :
    let start : NvsPartition Bool Unit := { initialized := true, slots := {} }
    let failing : NvsConditions := { failedWrite := some .dropped }
    ∀ event : NvsEvent Bool Unit, event.refusedBy (start.run
      [.call false () {} .acquire, .call false () failing (.access (.write .a [0])),
        .call false () {} .release]) := by
  intro start failing event
  have unlocked : start.lock = none := rfl
  exact ((nvs_run_sound unlocked rfl
    [.call false () {} .acquire, .call false () failing (.access (.write .a [0])),
      .call false () {} .release]).2.2 rfl []).2 event

end

end DawnDock
