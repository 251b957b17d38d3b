import DawnDock.Library.Locking
import DawnDock.ScheduleStore.Store

/-!
The calls that `AtomicScheduleStore` makes on its slot storage (`schedule_store.cpp`).

An operation holds a storage transaction while it loads both slots, decides, writes one of
them and reads it back. Alone with the storage it does what `performStore` says, under some
faults (`runs_performStore`).
-/

namespace DawnDock

open ByteCodec AtomicProgram

inductive SlotReadResult where
  | empty
  | present (bytes : Bytes)
  | ioError
deriving DecidableEq

/-- What a storage transaction is for. -/
inductive SlotCall where
  | read (slot : StorageSlot)
  | write (slot : StorageSlot) (bytes : Bytes)

abbrev SlotReply : SlotCall → Type
  | .read _ => SlotReadResult
  | .write .. => Bool

namespace SlotStorage

def read (slot : StorageSlot) : Program SlotReply SlotReadResult :=
  Program.issue (SlotCall.read slot)

def write (slot : StorageSlot) (bytes : Bytes) : Program SlotReply Bool :=
  Program.issue (SlotCall.write slot bytes)

end SlotStorage

/-! ### The operations -/

namespace AtomicScheduleStore

open SlotStorage

/-- The loop of `load_unlocked`. -/
def loadLoop : List StorageSlot → LoadScan → Program SlotReply LoadResult
  | [], scan => return scan.conclude
  | slot :: rest, scan => do
      match ← read slot with
      | .ioError => return { status := .ioError }
      | .empty => loadLoop rest scan
      | .present bytes => loadLoop rest (scan.step slot (slotRecord (some bytes)))

def loadUnlocked : Program SlotReply LoadResult := loadLoop [.a, .b] {}

/-- The verdict on the bytes read back. -/
def verifiedResult (current : LoadResult) (destination : StorageSlot)
    (verify : DecodedRecord → Bool) (bytes : Option Bytes) : StoreResult :=
  if (bytes.bind decodeRecord).any fun verified =>
      verified.generation == current.generation + 1 && verify verified then
    ⟨.stored, current.generation + 1, destination⟩
  else ⟨.verificationFailed, current.generation, destination⟩

/-- The end that the three writers share. -/
def commit (current : LoadResult) (snapshot : ScheduleSnapshot) (destination : StorageSlot)
    (verify : DecodedRecord → Bool) : Program SlotReply StoreResult := do
  match encodeRecord snapshot (current.generation + 1) with
  | none => return ⟨.invalidSnapshot, current.generation, destination⟩
  | some encoded =>
      if !(← write destination encoded) then
        return ⟨.ioError, current.generation, destination⟩
      else
        match ← read destination with
        | .ioError => return ⟨.ioError, current.generation, destination⟩
        | .empty => return verifiedResult current destination verify none
        | .present bytes => return verifiedResult current destination verify (some bytes)

/-- A writer inside its transaction. -/
def writer (plan : LoadResult → WritePlan) (verify : ScheduleSnapshot → DecodedRecord → Bool) :
    Program SlotReply StoreResult := do
  let current ← loadUnlocked
  match plan current with
  | .answer result => return result
  | .commit snapshot destination => commit current snapshot destination (verify snapshot)

/-- The operation inside its transaction. -/
def transaction : (c : StoreCall) → Program SlotReply (StoreReply c)
  | .load => loadUnlocked
  | .migrateToCurrentSchema => writer migrateToCurrentSchemaPlan verifyMigrated
  | .save snapshot expectedRevision => writer (savePlan · snapshot expectedRevision) verifySaved
  | .saveOccurrenceState state expectedRevision expectedGeneration =>
      writer (saveOccurrenceStatePlan · state expectedRevision expectedGeneration) verifySaved

/-- The answer where the transaction is not active. -/
def inactive : (c : StoreCall) → StoreReply c
  | .load => { status := .ioError }
  | .migrateToCurrentSchema | .save .. | .saveOccurrenceState .. => { status := .ioError }

end AtomicScheduleStore

/-! ### Alone with the storage -/

/-- What the storage keeps within a boot. A failed write leaves it uncertain. -/
structure SlotContents where
  slots : Slots
  writeUncertain : Bool

def slotReadResult : Option Bytes → SlotReadResult
  | none => .empty
  | some bytes => .present bytes

/-- What the calls of a transaction may answer and leave. -/
def slotResource : Resource SlotReply SlotContents
  | before, .read slot, reply, after => after = before ∧
      (reply = .ioError ∨
        before.writeUncertain = false ∧ reply = slotReadResult (before.slots.get slot))
  | before, .write slot bytes, reply, after =>
      (reply = true ∧ before.writeUncertain = false ∧
        after = { before with slots := before.slots.set slot bytes }) ∨
      (reply = false ∧ (after = before ∨ ∃ effect : WriteEffect,
        after = { slots := effect.apply before.slots slot bytes, writeUncertain := true }))

section Alone

open AtomicScheduleStore

variable {before after : SlotContents}

theorem runs_read {α : Type} {slot : StorageSlot} {next : SlotReadResult → Program SlotReply α}
    {a : α} (runs : Runs slotResource (SlotStorage.read slot >>= next) before a after) :
    Runs slotResource (next .ioError) before a after ∨
      before.writeUncertain = false ∧
        Runs slotResource (next (slotReadResult (before.slots.get slot))) before a after := by
  obtain ⟨reply, middle, ⟨same, answer⟩, rest⟩ := runs_call.mp runs
  subst same
  rcases answer with rfl | ⟨certain, rfl⟩
  · exact .inl rest
  · exact .inr ⟨certain, rest⟩

theorem runs_write {α : Type} {slot : StorageSlot} {bytes : Bytes}
    {next : Bool → Program SlotReply α} {a : α}
    (runs : Runs slotResource (SlotStorage.write slot bytes >>= next) before a after) :
    Runs slotResource (next true) { before with slots := before.slots.set slot bytes } a after ∨
      ∃ middle : SlotContents, Runs slotResource (next false) middle a after ∧
        ∃ effect : WriteEffect, middle.slots = effect.apply before.slots slot bytes := by
  obtain ⟨written, middle, answer, rest⟩ := runs_call.mp runs
  rcases answer with ⟨rfl, -, rfl⟩ | ⟨rfl, rfl | ⟨effect, rfl⟩⟩
  · exact .inl rest
  · exact .inr ⟨middle, rest, .dropped, rfl⟩
  · exact .inr ⟨_, rest, effect, rfl⟩

/-- The loop over the slots reads what they hold, or fails. -/
theorem runs_loadLoop {order : List StorageSlot} {scan : LoadScan} {result : LoadResult}
    (runs : Runs slotResource (loadLoop order scan) before result after) :
    after = before ∧ (result = { status := .ioError } ∨
      result = (order.foldl (fun scan slot =>
        scan.step slot (slotRecord (before.slots.get slot))) scan).conclude) := by
  induction order generalizing scan with
  | nil =>
      obtain ⟨rfl, rfl⟩ := runs_done.mp runs
      exact ⟨rfl, .inr rfl⟩
  | cons slot rest ih =>
      rw [loadLoop] at runs
      rcases runs_read runs with failed | ⟨-, answered⟩
      · obtain ⟨rfl, rfl⟩ := runs_done.mp failed
        exact ⟨rfl, .inl rfl⟩
      · rw [List.foldl_cons]
        cases held : before.slots.get slot with
        | none =>
            rw [held] at answered
            exact ih answered
        | some bytes =>
            rw [held] at answered
            exact ih answered

theorem runs_loadUnlocked {result : LoadResult}
    (runs : Runs slotResource AtomicScheduleStore.loadUnlocked before result after) :
    after = before ∧ (result = { status := .ioError } ∨ result = scanSlots before.slots) :=
  runs_loadLoop runs

/-- A commit writes as `commitRecord` does under some faults. -/
theorem runs_commit {current : LoadResult} {snapshot : ScheduleSnapshot}
    {destination : StorageSlot} {verify : DecodedRecord → Bool} {result : StoreResult}
    (runs : Runs slotResource (commit current snapshot destination verify) before result after) :
    ∃ faults : StorageFaults, faults.transactionRefused = false ∧ faults.readFails = false ∧
      DawnDock.commitRecord before.slots faults current snapshot destination verify =
        (result, after.slots) := by
  unfold commit at runs
  cases encoded : encodeRecord snapshot (current.generation + 1) with
  | none =>
      rw [encoded] at runs
      obtain ⟨rfl, rfl⟩ := runs_done.mp runs
      exact ⟨{}, rfl, rfl, by rw [DawnDock.commitRecord]; simp only [encoded]⟩
  | some bytes =>
      rw [encoded] at runs
      rcases runs_write runs with stored | ⟨middle, refused, effect, left⟩
      · simp only [Bool.not_true, Bool.false_eq_true, if_false] at stored
        rcases runs_read stored with failed | ⟨-, answered⟩
        · obtain ⟨rfl, rfl⟩ := runs_done.mp failed
          exact ⟨{ readBackFails := true }, rfl, rfl,
            by simp [DawnDock.commitRecord, encoded, WriteEffect.apply]⟩
        · rw [Slots.get_set_self] at answered
          obtain ⟨rfl, rfl⟩ := runs_done.mp answered
          refine ⟨{}, rfl, rfl, ?_⟩
          simp only [DawnDock.commitRecord, encoded, WriteEffect.apply, Bool.or_self,
            Bool.false_eq_true, if_false, Slots.get_set_self]
          rw [verifiedResult, apply_ite (Prod.mk · _)]
      · obtain ⟨rfl, rfl⟩ := runs_done.mp refused
        exact ⟨{ write := effect, writeRefused := true }, rfl, rfl,
          by simp [DawnDock.commitRecord, encoded, left]⟩

/-- A writer that refuses an unreadable store. -/
theorem runs_writer {plan : LoadResult → WritePlan}
    (refuses : plan { status := .ioError } = .answer { status := .ioError })
    {verify : ScheduleSnapshot → DecodedRecord → Bool} {result : StoreResult}
    (runs : Runs slotResource (writer plan verify) before result after) :
    ∃ faults : StorageFaults, faults.transactionRefused = false ∧
      runWriter before.slots faults plan verify = (result, after.slots) := by
  obtain ⟨current, middle, loaded, rest⟩ := runs_bind.mp runs
  obtain ⟨rfl, rfl | rfl⟩ := runs_loadUnlocked loaded
  · rw [refuses] at rest
    obtain ⟨rfl, rfl⟩ := runs_done.mp rest
    exact ⟨{ readFails := true }, rfl,
      by simp [runWriter, DawnDock.loadUnlocked, refuses, WritePlan.run]⟩
  · cases planned : plan (scanSlots middle.slots) with
    | answer answer =>
        rw [planned] at rest
        obtain ⟨rfl, rfl⟩ := runs_done.mp rest
        exact ⟨{}, rfl, by simp [runWriter, DawnDock.loadUnlocked, planned, WritePlan.run]⟩
    | commit snapshot destination =>
        rw [planned] at rest
        obtain ⟨faults, active, reads, committed⟩ := runs_commit rest
        refine ⟨faults, active, ?_⟩
        simp [runWriter, DawnDock.loadUnlocked, active, reads, planned, WritePlan.run, committed]

/-- Inside its transaction an operation does what `performStore` does under some faults. -/
theorem runs_performStore {c : StoreCall} {reply : StoreReply c}
    (runs : Runs slotResource (transaction c) before reply after) :
    ∃ faults : StorageFaults, faults.transactionRefused = false ∧
      performStore faults before.slots c = (reply, after.slots) := by
  cases c with
  | load =>
      obtain ⟨rfl, rfl | rfl⟩ := runs_loadUnlocked runs
      · exact ⟨{ readFails := true }, rfl, rfl⟩
      · exact ⟨{}, rfl, rfl⟩
  | migrateToCurrentSchema => exact runs_writer rfl runs
  | save snapshot expectedRevision => exact runs_writer rfl runs
  | saveOccurrenceState state expectedRevision expectedGeneration => exact runs_writer rfl runs

theorem inactive_performStore (slots : Slots) (c : StoreCall) :
    performStore { transactionRefused := true } slots c = (inactive c, slots) := by
  cases c <;> rfl

end Alone

end DawnDock
