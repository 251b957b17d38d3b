import DawnDock.ScheduleStore.Register

/-!
What clients may rely on between two of their calls.

* `Evolves`: a loaded record stays loaded, its generation and revision never
  decrease, a record of the same generation is the same record and one of the
  same revision has the same schedule. Every operation evolves the register
  under every fault (`performRegister_evolves`), so every run does.
* `CommitOutcome`: the ways a journal commit can end. It is the only inversion of
  `saveOccurrenceState` the clients' proofs use.
-/

namespace DawnDock

open AtomicProgram

/-! ### Evolution -/

/-- What stays true of a loaded record while others use the store. -/
structure Succeeds (earlier later : Register) : Prop where
  loaded : later.status = .loaded
  generation : earlier.generation ≤ later.generation
  record : later.generation = earlier.generation → later.snapshot = earlier.snapshot
  revision : earlier.snapshot.revision ≤ later.snapshot.revision
  schedule : later.snapshot.revision = earlier.snapshot.revision →
    later.snapshot =
      { earlier.snapshot with occurrenceState := later.snapshot.occurrenceState }

def Evolves (earlier later : Register) : Prop := earlier.status = .loaded → Succeeds earlier later

theorem Succeeds.trans {first second third : Register} (h : Succeeds first second)
    (h' : Succeeds second third) : Succeeds first third where
  loaded := h'.loaded
  generation := UInt64.le_trans h.generation h'.generation
  record same := by
    have middle : second.generation = first.generation :=
      UInt64.le_antisymm (same ▸ h'.generation) h.generation
    rw [h'.record (same.trans middle.symm), h.record middle]
  revision := UInt64.le_trans h.revision h'.revision
  schedule same := by
    have middle : second.snapshot.revision = first.snapshot.revision :=
      UInt64.le_antisymm (same ▸ h'.revision) h.revision
    rw [h'.schedule (same.trans middle.symm), h.schedule middle]

theorem Evolves.refl (current : Register) : Evolves current current := fun loaded =>
  ⟨loaded, UInt64.le_refl _, fun _ => rfl, UInt64.le_refl _, fun _ => rfl⟩

theorem Evolves.trans {first second third : Register} (h : Evolves first second)
    (h' : Evolves second third) : Evolves first third := by
  intro loaded
  exact (h loaded).trans (h' (h loaded).loaded)

/-- Only the damage flag may change. -/
def Register.SameRecord (before after : Register) : Prop :=
  after = before ∨ after = before.damaged

theorem Register.SameRecord.of_loaded {before after : Register} (h : before.SameRecord after)
    (loaded : before.status = .loaded) : after.status = .loaded ∧
      after.snapshot = before.snapshot ∧ after.generation = before.generation := by
  rcases h with rfl | rfl
  · exact ⟨loaded, rfl, rfl⟩
  · rw [Register.damaged, if_pos loaded]
    exact ⟨loaded, rfl, rfl⟩

theorem Register.SameRecord.evolves {before after : Register} (h : before.SameRecord after) :
    Evolves before after := by
  intro loaded
  obtain ⟨still, snapshot, generation⟩ := h.of_loaded loaded
  constructor
  · exact still
  · exact generation ▸ UInt64.le_refl _
  · exact fun _ => snapshot
  · exact snapshot ▸ UInt64.le_refl _
  · exact fun _ => by rw [snapshot]

/-- A commit of a snapshot that does not go back evolves the register. -/
theorem evolves_next {current : Register} {snapshot : ScheduleSnapshot}
    {destination : StorageSlot} (fresh : current.generation + 1 ≠ 0)
    (revision : current.status = .loaded → current.snapshot.revision ≤ snapshot.revision)
    (schedule : current.status = .loaded → snapshot.revision = current.snapshot.revision →
      snapshot = { current.snapshot with occurrenceState := snapshot.occurrenceState }) :
    Evolves current (current.next snapshot destination) := by
  intro loaded
  constructor
  · rfl
  · exact UInt64.le_of_lt (lt_add_one fresh)
  · exact fun same => absurd same (UInt64.ne_of_lt (lt_add_one fresh)).symm
  · exact revision loaded
  · exact schedule loaded

theorem Register.write_cases (current : Register) (snapshot : ScheduleSnapshot)
    (destination : StorageSlot) (effect : WriteEffect) :
    current.SameRecord (current.write snapshot destination effect) ∨
      (effect = .applied ∧
        current.write snapshot destination effect = current.next snapshot destination) := by
  cases effect with
  | applied => exact .inr ⟨rfl, rfl⟩
  | dropped => exact .inl (.inl rfl)
  | torn left => exact .inl (.inr rfl)

theorem writeRegister_evolves {faults : StorageFaults} {current : Register} {plan : WritePlan}
    (commits : ∀ snapshot destination, plan = .commit snapshot destination →
      Evolves current (current.next snapshot destination)) :
    Evolves current (writeRegister faults current plan).2 := by
  unfold writeRegister
  split
  · exact .refl current
  · cases plan with
    | answer result => exact .refl current
    | commit snapshot destination =>
        rcases current.write_cases snapshot destination faults.write with same | ⟨-, next⟩
        · exact same.evolves
        · have commit := commits snapshot destination rfl
          rwa [← next] at commit

/-- Every operation evolves the register, whatever the storage does. -/
theorem performRegister_evolves (faults : StorageFaults) (current : Register) (c : StoreCall) :
    Evolves current (performRegister faults current c).2 := by
  cases c with
  | load => exact .refl current
  | migrateToCurrentSchema =>
      refine writeRegister_evolves fun snapshot destination planned => ?_
      obtain ⟨-, rfl, fresh, -⟩ := migratePlan_commit planned
      exact evolves_next fresh (fun _ => UInt64.le_refl _) fun _ _ => rfl
  | save snapshot expectedRevision =>
      refine writeRegister_evolves fun committed destination planned => ?_
      obtain ⟨commits, -, expected, revision⟩ := savePlan_commit planned
      have nonzero := (validateSnapshot_iff.mp commits.valid).1.revision
      rw [revision] at nonzero
      have later (loaded : current.status = .loaded) :
          current.snapshot.revision < committed.revision := by
        rw [currentRevision, if_pos loaded] at expected
        rw [revision, ← expected]
        exact lt_add_one nonzero
      exact evolves_next commits.fresh (fun loaded => UInt64.le_of_lt (later loaded))
        fun loaded same => absurd same (UInt64.ne_of_lt (later loaded)).symm
  | saveOccurrenceState state expectedRevision expectedGeneration =>
      refine writeRegister_evolves fun snapshot destination planned => ?_
      obtain ⟨commits, -, rfl, -⟩ := saveOccurrenceStatePlan_commit planned
      exact evolves_next commits.fresh (fun _ => UInt64.le_refl _) fun _ _ => rfl

/-! ### Journal commits -/

/-- A journal commit that fits the current record. -/
structure Fits (current : Register) (state : PersistentAlarmState)
    (revision generation : UInt64) : Prop where
  loaded : current.status = .loaded
  revision : revision = current.snapshot.revision
  generation : generation = current.generation
  valid : validateSnapshot { current.snapshot with occurrenceState := state } = true
  fresh : current.generation ≠ uint64Max

/-- The register after a journal commit. -/
def Register.withJournal (current : Register) (state : PersistentAlarmState) : Register :=
  current.next { current.snapshot with occurrenceState := state } (opposite current.source)

/-- How a journal commit ends. -/
inductive CommitOutcome (current : Register) (state : PersistentAlarmState)
    (revision generation : UInt64) : StoreResult → Register → Prop where
  /-- Nothing was written. -/
  | refused {result : StoreResult} {after : Register} (failed : result.status.committed = false)
      (kept : current.SameRecord after)
      (invalid : result.status = .invalidSnapshot →
        validateSnapshot { current.snapshot with occurrenceState := state } = false ∨
          current.generation = uint64Max) :
      CommitOutcome current state revision generation result after
  /-- The journal is durable and the caller is told it failed. -/
  | unconfirmed {result : StoreResult} (failed : result.status.committed = false)
      (fault : result.status ≠ .invalidSnapshot)
      (fits : Fits current state revision generation) :
      CommitOutcome current state revision generation result (current.withJournal state)
  /-- The journal was durable already. -/
  | unchanged {result : StoreResult} (answer : result.status = .unchanged)
      (reported : result.generation = current.generation) (loaded : current.status = .loaded)
      (same : revision = current.snapshot.revision)
      (held : current.snapshot.occurrenceState = state)
      (near : current.generation = generation ∨
        (generation ≠ uint64Max ∧ generation + 1 = current.generation)) :
      CommitOutcome current state revision generation result current
  | stored {result : StoreResult} (answer : result.status = .stored)
      (reported : result.generation = current.generation + 1)
      (fits : Fits current state revision generation) :
      CommitOutcome current state revision generation result (current.withJournal state)

theorem fits_of_commit {current : Register} {state : PersistentAlarmState}
    {revision generation : UInt64} {snapshot : ScheduleSnapshot} {destination : StorageSlot}
    (h : saveOccurrenceStatePlan current state revision generation =
      .commit snapshot destination) :
    Fits current state revision generation ∧
      snapshot = { current.snapshot with occurrenceState := state } ∧
      destination = opposite current.source := by
  obtain ⟨commits, loaded, same, revision, generation⟩ := saveOccurrenceStatePlan_commit h
  have slot : destination = opposite current.source := by
    rcases commits.slot with ⟨-, slot⟩ | ⟨empty, -⟩
    · exact slot
    · exact absurd (loaded.symm.trans empty) (by decide)
  refine ⟨⟨loaded, revision, generation, same ▸ commits.valid, ?_⟩, same, slot⟩
  intro top
  exact commits.fresh (by rw [top]; rfl)

/-- A journal commit that is answered without a write. -/
theorem saveOccurrenceStatePlan_answered {current : Register} {state : PersistentAlarmState}
    {revision generation : UInt64} {result : StoreResult}
    (h : saveOccurrenceStatePlan current state revision generation = .answer result) :
    CommitOutcome current state revision generation result current := by
  simp only [saveOccurrenceStatePlan] at h
  split at h
  · rename_i refusal
    cases h
    rcases unreadableAnswer_refuses refusal with status | status
    all_goals exact .refused (by rw [status]; rfl) (.inl rfl) (by simp [status])
  split at h
  · cases h
    exact .refused rfl (.inl rfl) (by simp)
  rename_i matching
  split at h
  · rename_i invalid
    cases h
    exact .refused rfl (.inl rfl) fun _ => .inl (by simpa using invalid)
  split at h
  · rename_i landed
    cases h
    simp only [not_or, not_not] at matching
    refine .unchanged rfl rfl matching.1 matching.2.symm ?_ landed.2
    exact (congrArg ScheduleSnapshot.occurrenceState landed.1).symm
  split at h
  · cases h
    exact .refused rfl (.inl rfl) (by simp)
  split at h
  · rename_i top
    cases h
    exact .refused rfl (.inl rfl) fun _ => .inr top
  · cases h

/-- Only an applied and acknowledged write is confirmed. -/
theorem Register.commit_outcome {faults : StorageFaults} {current : Register}
    {state : PersistentAlarmState} {revision generation : UInt64}
    (fits : Fits current state revision generation) :
    let done := current.commit faults { current.snapshot with occurrenceState := state }
      (opposite current.source)
    CommitOutcome current state revision generation done.1 done.2 := by
  simp only [Register.commit]
  by_cases reported : (faults.writeRefused || faults.readBackFails) = true
  · have unconfirmed : faults.confirms = false := by
      unfold StorageFaults.confirms
      split <;> simp [reported]
    simp only [unconfirmed, reported, if_true, Bool.false_eq_true, if_false]
    rcases current.write_cases _ _ faults.write with kept | ⟨-, written⟩
    · exact .refused rfl kept (by simp)
    · rw [written]
      exact .unconfirmed rfl (by simp) fits
  · have quiet : (faults.writeRefused || faults.readBackFails) = false := by simpa using reported
    cases effect : faults.write with
    | applied =>
        have confirmed : faults.confirms = true := by
          simp only [StorageFaults.confirms, effect, quiet, Bool.not_false]
        simp only [confirmed, if_true]
        exact .stored rfl rfl fits
    | dropped =>
        simp only [StorageFaults.confirms, effect, quiet, Bool.false_eq_true, if_false]
        exact .refused rfl (.inl rfl) (by simp)
    | torn left =>
        simp only [StorageFaults.confirms, effect, quiet, Bool.false_eq_true, if_false]
        exact .refused rfl (.inr rfl) (by simp)

theorem performRegister_outcome (faults : StorageFaults) (current : Register)
    (state : PersistentAlarmState) (revision generation : UInt64) :
    CommitOutcome current state revision generation
      (performRegister faults current (.saveOccurrenceState state revision generation)).1
      (performRegister faults current (.saveOccurrenceState state revision generation)).2 := by
  simp only [performRegister, writeRegister]
  split
  · exact .refused rfl (.inl rfl) (by simp)
  cases planned : saveOccurrenceStatePlan current state revision generation with
  | answer result => exact saveOccurrenceStatePlan_answered planned
  | commit snapshot destination =>
      obtain ⟨fits, rfl, rfl⟩ := fits_of_commit planned
      exact Register.commit_outcome fits

/-- A journal that fits and is new is committed. -/
theorem saveOccurrenceStatePlan_fits {current : Register} {state : PersistentAlarmState}
    {revision generation : UInt64} (fits : Fits current state revision generation)
    (changed : state ≠ current.snapshot.occurrenceState) :
    saveOccurrenceStatePlan current state revision generation =
      .commit { current.snapshot with occurrenceState := state } (opposite current.source) := by
  obtain ⟨loaded, rfl, rfl, valid, room⟩ := fits
  have readable : unreadableAnswer .loaded = none := rfl
  have differs : { current.snapshot with occurrenceState := state } ≠ current.snapshot :=
    fun same => changed (congrArg ScheduleSnapshot.occurrenceState same)
  simp [saveOccurrenceStatePlan, loaded, readable, valid, differs, room]

/-- Over healthy storage it is stored. -/
theorem performRegister_fits {current : Register} {state : PersistentAlarmState}
    {revision generation : UInt64} (fits : Fits current state revision generation)
    (changed : state ≠ current.snapshot.occurrenceState) :
    performRegister {} current (.saveOccurrenceState state revision generation) =
      (⟨.stored, current.generation + 1, opposite current.source⟩,
        current.withJournal state) := by
  simp only [performRegister, writeRegister, saveOccurrenceStatePlan_fits fits changed]
  rfl

/-! ### Schedule saves -/

/-- A save that is answered `unchanged` finds its schedule over the stored journal. -/
theorem savePlan_answer_committed {current : Register} {snapshot : ScheduleSnapshot}
    {expectedRevision : UInt64} {result : StoreResult}
    (planned : savePlan current snapshot expectedRevision = .answer result)
    (committed : result.status.committed = true) :
    current.status = .loaded ∧ current.snapshot = committedSnapshot current snapshot := by
  simp only [savePlan] at planned
  split at planned
  · rename_i answer unreadable
    obtain rfl : answer = result := by simpa using planned
    unfold unreadableAnswer at unreadable
    split at unreadable <;> cases unreadable <;> cases committed
  split at planned
  · rename_i held
    exact ⟨held.1, held.2.1⟩
  all_goals
    repeat' split at planned
    all_goals cases planned
    all_goals cases committed

/-- Only an applied write is confirmed. -/
theorem Register.commit_confirmed {faults : StorageFaults} {current : Register}
    {snapshot : ScheduleSnapshot} {destination : StorageSlot}
    (committed : (current.commit faults snapshot destination).1.status.committed = true) :
    (current.commit faults snapshot destination).2 = current.next snapshot destination := by
  simp only [Register.commit] at committed ⊢
  cases effect : faults.write with
  | applied => rfl
  | dropped | torn left =>
      have unconfirmed : faults.confirms = false := by simp only [StorageFaults.confirms, effect]
      rw [unconfirmed, if_neg Bool.false_ne_true] at committed
      split at committed <;> cases committed

/-- A confirmed save over a record leaves its schedule, and the journal it met. -/
theorem performRegister_save {faults : StorageFaults} {current : Register}
    {snapshot : ScheduleSnapshot} {expectedRevision : UInt64} (loaded : current.status = .loaded)
    (committed : (performRegister faults current
      (.save snapshot expectedRevision)).1.status.committed = true) :
    let after := (performRegister faults current (.save snapshot expectedRevision)).2
    after.status = .loaded ∧
      after.snapshot = { snapshot with occurrenceState := current.snapshot.occurrenceState } := by
  simp only [performRegister, writeRegister] at committed ⊢
  split at committed
  · cases committed
  rename_i admitted
  rw [if_neg admitted]
  have kept : committedSnapshot current snapshot =
      { snapshot with occurrenceState := current.snapshot.occurrenceState } := if_pos loaded
  cases planned : savePlan current snapshot expectedRevision with
  | answer result =>
      rw [planned] at committed
      exact ⟨loaded, (savePlan_answer_committed planned committed).2.trans kept⟩
  | commit saved destination =>
      rw [planned] at committed
      obtain ⟨-, rfl, -⟩ := savePlan_commit planned
      simp only [WritePlan.runOn, Register.commit_confirmed committed]
      exact ⟨rfl, kept⟩

end DawnDock
