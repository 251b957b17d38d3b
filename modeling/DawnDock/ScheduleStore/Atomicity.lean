import DawnDock.ScheduleStore.Register

/-!
What the clients of the store rely on.

* `store_refines_register`: over healthy storage the store is one atomic
  versioned register for any number of interleaved clients.
* `store_crash_atomic`: a write that is lost, torn or unacknowledged leaves the
  previous record or the intended one, and repeating the call ends with the
  intended one.
-/

namespace DawnDock

open ByteCodec AtomicProgram

/-! ### The atomic register -/

/-- A `stored` answer: a load now returns the snapshot, one generation later,
and the answer carries that generation. -/
structure StoredAs (before : Slots) (result : StoreResult) (after : Slots)
    (snapshot : ScheduleSnapshot) : Prop where
  loaded : (scanSlots after).status = .loaded
  snapshot_eq : (scanSlots after).snapshot = snapshot
  generation : (scanSlots after).generation.toNat = (scanSlots before).generation.toNat + 1
  reported : result.generation = (scanSlots after).generation

/-- Everything but `stored` leaves both slots alone. -/
def Refused (before : Slots) (result : StoreResult) (after : Slots) : Prop :=
  result.status ≠ .stored ∧ after = before

/-- The contract of one operation between the slots' contents before and after it. -/
def RegisterContract (before : Slots) : (c : StoreCall) → StoreReply c → Slots → Prop
  | .load, reply, after => reply = scanSlots before ∧ after = before
  | .migrateToCurrentSchema, reply, after =>
      Refused before reply after ∨
        reply.status = .stored ∧ (scanSlots before).status = .loaded ∧
          StoredAs before reply after (scanSlots before).snapshot
  | .save snapshot expectedRevision, reply, after =>
      Refused before reply after ∨
        reply.status = .stored ∧ expectedRevision = currentRevision (scanSlots before) ∧
          snapshot.revision.toNat = expectedRevision.toNat + 1 ∧
          StoredAs before reply after
            { snapshot with
              occurrenceState :=
                if (scanSlots before).status = .loaded then
                  (scanSlots before).snapshot.occurrenceState
                else snapshot.occurrenceState }
  | .saveOccurrenceState state expectedRevision expectedGeneration, reply, after =>
      Refused before reply after ∨
        reply.status = .stored ∧ (scanSlots before).status = .loaded ∧
          expectedRevision = (scanSlots before).snapshot.revision ∧
          expectedGeneration = (scanSlots before).generation ∧
          StoredAs before reply after
            { (scanSlots before).snapshot with occurrenceState := state }

theorem toNat_add_one {n : UInt64} (h : n + 1 ≠ 0) : (n + 1).toNat = n.toNat + 1 := by
  have increase := UInt64.lt_iff_toNat_lt.mp (lt_add_one h)
  have := n.toNat_lt
  simp only [UInt64.toNat_add, UInt64.toNat_one] at increase ⊢
  omega

/-- Over healthy storage a plan either answers and leaves the slots, or stores
what it planned. -/
theorem runWriter_healthy {slots : Slots} {plan : LoadResult → WritePlan}
    {verify : ScheduleSnapshot → DecodedRecord → Bool}
    (commits : ∀ snapshot destination, plan (scanSlots slots) = .commit snapshot destination →
      Commits (scanSlots slots) snapshot destination)
    (answers : ∀ result, plan (scanSlots slots) = .answer result → result.status ≠ .stored)
    (accepts : ∀ snapshot generation, verify snapshot ⟨snapshot, generation, false⟩ = true) :
    Refused slots (runWriter slots {} plan verify).1 (runWriter slots {} plan verify).2 ∨
      ∃ snapshot destination, plan (scanSlots slots) = .commit snapshot destination ∧
        (runWriter slots {} plan verify).1.status = .stored ∧
        StoredAs slots (runWriter slots {} plan verify).1 (runWriter slots {} plan verify).2
          snapshot := by
  cases planned : plan (scanSlots slots) with
  | answer result =>
      have answered : runWriter slots {} plan verify = (result, slots) := by
        show (plan (scanSlots slots)).run _ _ _ _ = _
        rw [planned]
        rfl
      rw [answered]
      exact .inl ⟨answers result planned, rfl⟩
  | commit snapshot destination =>
      have commit := commits snapshot destination planned
      have view := @commitRecord_view slots {} snapshot destination _ commit (accepts snapshot _)
      have run : runWriter slots {} plan verify =
          commitRecord slots {} (scanSlots slots) snapshot destination (verify snapshot) := by
        show (plan (scanSlots slots)).run _ _ _ _ = _
        rw [planned]
        rfl
      rw [← run] at view
      obtain ⟨result, after⟩ := Prod.ext_iff.mp view
      have result : (runWriter slots {} plan verify).1 = _ := result
      have after : scanSlots (runWriter slots {} plan verify).2 = _ := after
      refine .inr ⟨snapshot, destination, rfl, by rw [result]; rfl, ?_⟩
      constructor
      · rw [after]; rfl
      · rw [after]; rfl
      · rw [after]; exact toNat_add_one commit.fresh
      · rw [after, result]; rfl

theorem performStore_contract (slots : Slots) (c : StoreCall) :
    RegisterContract slots c (performStore {} slots c).1 (performStore {} slots c).2 := by
  cases c with
  | load => exact ⟨rfl, rfl⟩
  | migrateToCurrentSchema =>
      rcases @runWriter_healthy slots migrateToCurrentSchemaPlan verifyMigrated
        (fun _ _ h => migratePlan_commits h) (fun _ h => migratePlan_answer h)
        (fun _ _ => by simp [verifyMigrated]) with
        refused | ⟨snapshot, destination, planned, stored, storedAs⟩
      · exact .inl refused
      · obtain ⟨loaded, rfl, -⟩ := migratePlan_commit planned
        exact .inr ⟨stored, loaded, storedAs⟩
  | save snapshot expectedRevision =>
      rcases @runWriter_healthy slots (savePlan · snapshot expectedRevision) verifySaved
        (fun _ _ h => (savePlan_commit h).1) (fun _ h => savePlan_answer h)
        (fun _ _ => by simp [verifySaved]) with
        refused | ⟨committed, destination, planned, stored, storedAs⟩
      · exact .inl refused
      · obtain ⟨commits, rfl, expected, revision⟩ := savePlan_commit planned
        have fields : committedSnapshot (scanSlots slots) snapshot =
            { snapshot with
              occurrenceState :=
                if (scanSlots slots).status = .loaded then
                  (scanSlots slots).snapshot.occurrenceState
                else snapshot.occurrenceState } := by
          unfold committedSnapshot
          split <;> rfl
        have nonzero : (committedSnapshot (scanSlots slots) snapshot).revision ≠ 0 :=
          (validateSnapshot_iff.mp commits.valid).1.revision
        rw [revision] at nonzero
        rw [fields] at revision storedAs
        refine .inr ⟨stored, expected, ?_, storedAs⟩
        rw [show snapshot.revision = _ from revision]
        exact toNat_add_one nonzero
  | saveOccurrenceState state expectedRevision expectedGeneration =>
      rcases @runWriter_healthy slots
        (saveOccurrenceStatePlan · state expectedRevision expectedGeneration) verifySaved
        (fun _ _ h => (saveOccurrenceStatePlan_commit h).1)
        (fun _ h => saveOccurrenceStatePlan_answer h) (fun _ _ => by simp [verifySaved]) with
        refused | ⟨snapshot, destination, planned, stored, storedAs⟩
      · exact .inl refused
      · obtain ⟨-, loaded, rfl, revision, generation⟩ := saveOccurrenceStatePlan_commit planned
        exact .inr ⟨stored, loaded, revision, generation, storedAs⟩

/-- For any clients, any order of their calls and any initial content of the two
slots: the calls happen one after another, each keeps its contract, and the run
is a run of the register a load shows. -/
theorem store_refines_register {ι : Type} [DecidableEq ι] {α : ι → Type}
    (clients : Pool StoreReply α) (schedule : List ι) (slots : Slots) :
    let run := runPool (performStore {}) schedule slots clients
    Linked slots (run.1.map Prod.snd) run.2.1 ∧
      (∀ e ∈ run.1, RegisterContract e.2.before e.2.call e.2.reply e.2.after) ∧
      runPool (performRegister {}) schedule (scanSlots slots) clients =
        (run.1.map fun e => (e.1, e.2.mapState scanSlots), scanSlots run.2.1, run.2.2) := by
  refine ⟨runPool_linked _ schedule slots clients, fun e he => ?_,
    (performStore_simulates {}).runPool schedule slots clients⟩
  have step := runPool_step (performStore {}) schedule slots clients e he
  rw [step]
  exact performStore_contract e.2.before e.2.call

/-! ### Crash atomicity -/

/-- The call gets as far as writing `snapshot` into `destination`. -/
structure ReachesWrite (slots : Slots) (faults : StorageFaults) (c : StoreCall)
    (snapshot : ScheduleSnapshot) (destination : StorageSlot) : Prop where
  admitted : (faults.transactionRefused || faults.readFails) = false
  planned : c.plan (scanSlots slots) = some (.commit snapshot destination)

theorem StoreCall.plan_commits {slots : Slots} {c : StoreCall} {snapshot : ScheduleSnapshot}
    {destination : StorageSlot} (h : c.plan (scanSlots slots) = some (.commit snapshot destination)) :
    Commits (scanSlots slots) snapshot destination := by
  cases c with
  | load => cases h
  | migrateToCurrentSchema => exact migratePlan_commits (Option.some.inj h)
  | save => exact (savePlan_commit (Option.some.inj h)).1
  | saveOccurrenceState => exact (saveOccurrenceStatePlan_commit (Option.some.inj h)).1

/-- The slot write is the only change a call makes. -/
theorem ReachesWrite.slots_eq {slots : Slots} {faults : StorageFaults} {c : StoreCall}
    {snapshot : ScheduleSnapshot} {destination : StorageSlot}
    (h : ReachesWrite slots faults c snapshot destination) :
    ∃ encoded, (performStore faults slots c).2 = faults.write.apply slots destination encoded := by
  have commits := StoreCall.plan_commits h.planned
  obtain ⟨encoded, written⟩ := encodeRecord_total ((scanSlots slots).generation + 1) commits.valid
  obtain ⟨refused, fails⟩ := Bool.or_eq_false_iff.mp h.admitted
  have commit (verify : DecodedRecord → Bool) :
      (commitRecord slots faults (scanSlots slots) snapshot destination verify).2 =
        faults.write.apply slots destination encoded := by
    simp only [commitRecord, written]
    repeat' split
    all_goals rfl
  have run (plan : LoadResult → WritePlan) (verify : ScheduleSnapshot → DecodedRecord → Bool)
      (planned : plan (scanSlots slots) = .commit snapshot destination) :
      (runWriter slots faults plan verify).2 = faults.write.apply slots destination encoded := by
    simp only [runWriter, loadUnlocked, refused, fails, Bool.false_eq_true, if_false, planned]
    exact commit (verify snapshot)
  refine ⟨encoded, ?_⟩
  cases c with
  | load => cases h.planned
  | migrateToCurrentSchema => exact run _ _ (Option.some.inj h.planned)
  | save arg expected =>
      exact run (savePlan · arg expected) _ (Option.some.inj h.planned)
  | saveOccurrenceState state revision generation =>
      exact run (saveOccurrenceStatePlan · state revision generation) _
        (Option.some.inj h.planned)

/-- Damage to the slot that does not hold the record changes no decision. -/
theorem StoreCall.plan_corruption (current : LoadResult) (c : StoreCall) (detected : Bool) :
    c.plan { current with corruptionDetected := detected } = c.plan current := by
  cases c <;> rfl

/-- Repeating a call whose write landed finds its own record and answers `unchanged`. -/
theorem StoreCall.plan_landed {slots : Slots} {c : StoreCall} {snapshot : ScheduleSnapshot}
    {destination : StorageSlot} (loaded : (scanSlots slots).status = .loaded)
    (planned : c.plan (scanSlots slots) = some (.commit snapshot destination)) :
    c.plan (Register.next (scanSlots slots) snapshot destination) =
      some (.answer ⟨.unchanged, (scanSlots slots).generation + 1, destination⟩) := by
  have commits := StoreCall.plan_commits planned
  have notMax {n : UInt64} (h : n + 1 ≠ 0) : n ≠ uint64Max := by
    rintro rfl
    exact h (by decide)
  cases c with
  | load => cases planned
  | migrateToCurrentSchema => rfl
  | save arg expected =>
      obtain ⟨-, rfl, -, revision⟩ := savePlan_commit (Option.some.inj planned)
      have nonzero := (validateSnapshot_iff.mp commits.valid).1.revision
      rw [revision] at nonzero
      have carried : committedSnapshot
          (Register.next (scanSlots slots) (committedSnapshot (scanSlots slots) arg) destination)
          arg = committedSnapshot (scanSlots slots) arg := by
        simp only [committedSnapshot, Register.next, loaded, if_true]
      simp only [StoreCall.plan, savePlan, carried]
      simp [Register.next, unreadableAnswer, currentRevision, revision, notMax nonzero]
  | saveOccurrenceState state expectedRevision expectedGeneration =>
      obtain ⟨-, -, rfl, rfl, rfl⟩ := saveOccurrenceStatePlan_commit (Option.some.inj planned)
      have valid := commits.valid
      simp [StoreCall.plan, saveOccurrenceStatePlan, Register.next, unreadableAnswer, valid,
        notMax commits.fresh]

/-- A call on a loadable store whose single slot write is lost, torn or applied,
acknowledged or not: the slot with the current record is not written, a load
returns the current record or the intended one, and repeating the call ends with
the intended one, exactly one generation on. -/
theorem store_crash_atomic {slots : Slots} {faults : StorageFaults} {c : StoreCall}
    {snapshot : ScheduleSnapshot} {destination : StorageSlot}
    (loaded : (scanSlots slots).status = .loaded)
    (writes : ReachesWrite slots faults c snapshot destination) :
    let current := scanSlots slots
    let intended : LoadResult :=
      { status := .loaded, snapshot, generation := current.generation + 1, source := destination }
    let after := (performStore faults slots c).2
    let retried := performStore {} after c
    intended.generation.toNat = current.generation.toNat + 1 ∧
      after.get current.source = slots.get current.source ∧
      (scanSlots after = current ∨ scanSlots after = { current with corruptionDetected := true } ∨
        scanSlots after = intended) ∧
      (storeStatus c retried.1 = some .stored ∨ storeStatus c retried.1 = some .unchanged) ∧
      scanSlots retried.2 = intended := by
  intro current intended after retried
  have commits := StoreCall.plan_commits writes.planned
  have opposite_slot : destination = opposite current.source := by
    rcases commits.slot with ⟨-, slot⟩ | ⟨empty, -⟩
    · exact slot
    · exact absurd (loaded.symm.trans empty) (by decide)
  have next : scanSlots after = Register.write current snapshot destination faults.write := by
    have step := congrArg Prod.snd (performStore_simulates faults slots c)
    exact step.symm.trans (performRegister_plan writes.admitted writes.planned).2
  have retry : performRegister {} (scanSlots after) c = (retried.1, scanSlots retried.2) :=
    performStore_simulates {} after c
  refine ⟨toNat_add_one commits.fresh, ?_, ?_, ?_⟩
  · obtain ⟨encoded, written⟩ := writes.slots_eq
    show ((performStore faults slots c).2).get _ = _
    rw [written, opposite_slot]
    cases faults.write with
    | dropped => rfl
    | applied => exact Slots.get_opposite_set slots current.source encoded
    | torn left => exact Slots.get_opposite_set slots current.source left
  · rw [next]
    cases faults.write with
    | dropped => exact .inl rfl
    | applied => exact .inr (.inr rfl)
    | torn left => exact .inr (.inl (if_pos loaded))
  · have again {start : Register} {plan : WritePlan} (planned : c.plan start = some plan) :=
      @performRegister_plan {} start c plan rfl planned
    rw [next] at retry
    have status := congrArg (fun r => storeStatus c r.1) retry
    have result := congrArg Prod.snd retry
    simp only at status result
    rw [← status, ← result]
    cases faults.write with
    | dropped =>
        have planned := again writes.planned
        exact ⟨.inl planned.1, planned.2⟩
    | applied =>
        have planned := again (StoreCall.plan_landed loaded writes.planned)
        exact ⟨.inr planned.1, planned.2⟩
    | torn left =>
        have spoiled : Register.write current snapshot destination (.torn left) =
            { current with corruptionDetected := true } := if_pos loaded
        rw [spoiled]
        have planned := again ((StoreCall.plan_corruption current c true).trans writes.planned)
        exact ⟨.inl planned.1, planned.2⟩

/-- A store that holds one schedule with the one alarm `w`. -/
def oneAlarmSchedule : ScheduleSnapshot :=
  { revision := 1, timezoneRulesVersion := [0x31]
    alarms := [{ id := [0x77], scheduleRevision := 1, enabled := true
                 scheduledUtcSeconds := 1000 }] }

def oneAlarmStore : Slots := (performStore {} {} (.save oneAlarmSchedule 0)).2

theorem scanSlots_oneAlarmStore : scanSlots oneAlarmStore =
    { status := .loaded, snapshot := oneAlarmSchedule, generation := 1 } := by
  have empty : scanSlots {} = {} := rfl
  have step := performStore_simulates {} {} (.save oneAlarmSchedule 0)
  rw [empty] at step
  have committed : (performRegister {} {} (.save oneAlarmSchedule 0)).2 =
      { status := .loaded, snapshot := oneAlarmSchedule, generation := 1 } := by decide
  rw [oneAlarmStore, ← committed, step]

/-- A disable of the alarm whose write is lost and whose retry goes through. -/
theorem store_crash_atomic_lost_write :
    let disabled : ScheduleSnapshot :=
      { oneAlarmSchedule with
        revision := 2
        alarms := oneAlarmSchedule.alarms.map fun alarm => { alarm with enabled := false } }
    let lost := (performStore { write := .dropped } oneAlarmStore (.save disabled 1)).2
    scanSlots (performStore {} lost (.save disabled 1)).2 =
      { status := .loaded, snapshot := disabled, generation := 2, source := .b } := by
  intro disabled lost
  have planned : (StoreCall.save disabled 1).plan (scanSlots oneAlarmStore) =
      some (.commit disabled .b) := by
    rw [scanSlots_oneAlarmStore]
    decide
  have whole := @store_crash_atomic oneAlarmStore { write := .dropped } (.save disabled 1)
    disabled .b (by rw [scanSlots_oneAlarmStore]) ⟨rfl, planned⟩
  have generation : (scanSlots oneAlarmStore).generation + 1 = 2 := by
    rw [scanSlots_oneAlarmStore]
    rfl
  rw [whole.2.2.2.2, generation]

end DawnDock
