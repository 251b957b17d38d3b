import DawnDock.Clients.Device
import DawnDock.ScheduleStore.Atomicity

/-!
The journal over whole device histories.

Every store operation of a history keeps the journal invariant and advances the
ledger (`LedgerStep`), whatever the storage does to it, so both hold along every
run (`Device.run_ledger`).

* `journaled_at_most_once`: for each alarm the instants journaled for the first
  time strictly increase, and a terminal occurrence never becomes active again.
* `reachable_journal`: every record of a history satisfies the invariant, and its
  active occurrence can always be terminated.
-/

namespace DawnDock

open AtomicProgram

/-! ### One store operation -/

/-- A store operation that keeps the journal invariant and advances the ledger. -/
structure LedgerStep (e : StoreEvent) : Prop where
  before : JournalInv e.before.journal
  after : JournalInv e.after.journal
  advances : ∃ alarms : List StoredAlarmDefinition, (alarms.map (·.id)).Nodup ∧
    Advances alarms e.before.journal e.after.journal

/-- A journal commit is never refused as invalid below the last generation. -/
def Accepted (e : StoreEvent) : Prop :=
  ∀ journal revision generation, e.call = .saveOccurrenceState journal revision generation →
    e.before.generation ≠ uint64Max → storeStatus e.call e.reply ≠ some .invalidSnapshot

/-- A call of a client that works under an observation of the given kind. -/
def Exposed (allowed : RuntimeTickObservation → Prop) (log : StoreLog) (e : StoreEvent) : Prop :=
  ∃ observation stages edges, allowed observation ∧ Exposure observation stages log e edges

section

variable {observation : RuntimeTickObservation} {stages : CommitStage → Prop} {log own : StoreLog}
  {e : StoreEvent} {edges : List AlertEdge} {allowed : RuntimeTickObservation → Prop}

theorem Plans.ledger {stage : CommitStage} {journal : PersistentAlarmState}
    (planned : Plans e.before.snapshot observation stage edges journal)
    (fits : Fits e.before journal e.before.snapshot.revision e.before.generation)
    (after : e.after = e.before.withJournal journal) (rely : StoreRely log e)
    (inv : JournalInv e.before.journal) : LedgerStep e := by
  have schedule := (validateSnapshot_iff.mp (rely.valid fits.loaded)).1
  have accepted := (validateSnapshot_iff.mp fits.valid).2
  have journal_eq : e.after.journal = journal := by
    rw [after]
    rfl
  have before_eq := Register.journal_of_loaded fits.loaded
  obtain ⟨inv', advances⟩ := planned.sound schedule (.inr accepted) (before_eq ▸ inv)
  refine ⟨inv, journal_eq ▸ inv', e.before.snapshot.alarms, schedule.ids, ?_⟩
  rw [journal_eq, before_eq]
  exact advances

theorem CallEffect.ledger (h : CallEffect observation stages log e edges)
    (rely : StoreRely log e) (inv : JournalInv e.before.journal) : LedgerStep e := by
  cases h with
  | kept same => exact ⟨inv, same ▸ inv, [], .nil, same ▸ .refl _ _⟩
  | stored allowed planned fits after => exact planned.ledger fits after rely inv
  | unconfirmed allowed planned fits after => exact planned.ledger fits after rely inv
  | repeated last loaded allowed planned later same =>
      exact ⟨inv, same ▸ inv, [], .nil, same ▸ .refl _ _⟩

/-- A commit planned on the current record is not refused as invalid. -/
theorem Exposure.accepted (h : Exposure observation stages log e edges) (rely : StoreRely log e)
    (boot : validOptionalString observation.bootId kMaximumBootIdBytes = true)
    (current : ∀ seen, log.getLast? = some seen → seen.after = e.before)
    (inv : JournalInv e.before.journal) : Accepted e := by
  intro journal revision generation called room invalid
  cases h with
  | silent quiet => exact quiet _ _ _ called
  | @commit seen stage edges journal status last loaded allowed planned call answer =>
      obtain ⟨before, c, reply, after⟩ := e
      obtain rfl : seen.after = before := current seen last
      cases call
      have schedule := (validateSnapshot_iff.mp (rely.valid loaded)).1
      have inv : JournalInv seen.after.snapshot.occurrenceState := by
        rwa [← Register.journal_of_loaded loaded]
      have valid : validateSnapshot { seen.after.snapshot with occurrenceState := journal } =
          true :=
        validateSnapshot_iff.mpr ⟨schedule.withJournal journal,
          (planned.sound schedule (.inl boot) inv).1.valid⟩
      have status : reply.status = .invalidSnapshot := Option.some.inj invalid
      cases rely.commitOutcome with
      | refused _ _ invalid =>
          rcases invalid status with refused | top
          · rw [valid] at refused
            cases refused
          · exact room top
      | unconfirmed _ fault => exact fault status
      | unchanged replied =>
          rw [status] at replied
          cases replied
      | stored replied =>
          rw [status] at replied
          cases replied

/-- The calls of one client alone, from a journal that satisfies the invariant. -/
theorem ledger_of_calls {s t : Register} (answers : Along StoreRely log own)
    (exposed : Along (Exposed allowed) log own) (linked : Linked s own t)
    (current : ∀ seen, log.getLast? = some seen → seen.after = s) (inv : JournalInv s.journal) :
    (∀ e ∈ own, LedgerStep e ∧
      ((∀ observation, allowed observation →
        validOptionalString observation.bootId kMaximumBootIdBytes = true) → Accepted e)) ∧
      JournalInv t.journal := by
  induction own generalizing log s with
  | nil =>
      obtain rfl := linked
      exact ⟨by simp, inv⟩
  | cons e rest ih =>
      obtain ⟨rfl, linked⟩ := linked
      obtain ⟨rely, answers⟩ := answers
      obtain ⟨⟨observation, stages, edges, usual, exposure⟩, exposed⟩ := exposed
      have step := (exposure.effect rely).ledger rely inv
      obtain ⟨later, final⟩ := ih answers exposed linked (by simp) step.after
      refine ⟨fun f mem => ?_, final⟩
      rcases List.mem_cons.mp mem with rfl | mem
      · exact ⟨step, fun bounded => exposure.accepted rely (bounded observation usual) current inv⟩
      · exact later f mem

theorem Exposing.along {log' : StoreLog} (h : Exposing observation stages log edges log')
    (usual : allowed observation) : ∃ own, log' = log ++ own ∧
      Along (Exposed allowed) log own := by
  obtain ⟨own, rfl, exposes⟩ := h
  refine ⟨own, rfl, ?_⟩
  induction exposes with
  | nil => trivial
  | cons first rest ih => exact ⟨⟨observation, stages, _, usual, first⟩, ih⟩

theorem Exposing.along_nil {log' : StoreLog} (h : Exposing observation stages [] edges log')
    (usual : allowed observation) : Along (Exposed allowed) [] log' := by
  obtain ⟨own, rfl, along⟩ := h.along usual
  exact along

theorem DeviceOp.Progress.along {op : DeviceOp} {coordinator : RuntimeCoordinatorState}
    {done : Outcome × RuntimeCoordinatorState} {log : StoreLog}
    (h : op.Progress coordinator done log) : Along (Exposed op.Observes) [] log := by
  cases op with
  | tick observation =>
      obtain ⟨result, -, progress⟩ := h
      cases progress with
      | ended exposing => exact exposing.along_nil (booted_bootId observation _)
      | settled settling evaluating =>
          have usual (bootPending : Bool) : DeviceOp.Observes (.tick observation)
              (observation.booted bootPending) := booted_bootId observation bootPending
          have settles := settling.along_nil (usual _)
          obtain ⟨own, rfl, evaluates⟩ := evaluating.along (usual _)
          exact along_append.mpr ⟨settles, evaluates⟩
  | evaluate observation => exact h.2.along_nil (.inl rfl)
  | reconcile observation => exact h.2.along_nil (.inl rfl)
  | engine call => exact h.2.along_nil (.inl rfl)
  | disable alarmId => exact h.2.along_nil (.inl rfl)
  | saveSchedule schedule expectedRevision => exact h.2.along_nil (.inl rfl)
  | reboot =>
      obtain ⟨-, rfl⟩ := h
      trivial

end

/-! ### Whole histories -/

/-- What holds after every history from `first`. -/
structure LedgerRun (first : Register) (device : Device) : Prop where
  linked : Linked first device.history device.current
  journal : JournalInv device.current.journal
  steps : ∀ e ∈ device.history, LedgerStep e

theorem LedgerRun.step {first : Register} {device : Device} (run : LedgerRun first device)
    (faults : ℕ → StorageFaults) (op : DeviceOp) : LedgerRun first (device.step faults op) ∧
      ((validOptionalString op.observation.bootId kMaximumBootIdBytes = true) →
        ∀ e ∈ device.calls faults op, Accepted e) := by
  have linked := device.calls_linked faults op
  obtain ⟨steps, journal⟩ := ledger_of_calls (device.calls_along faults op)
    (device.progress faults op).along linked (by simp) run.journal
  refine ⟨⟨linked_append.mpr ⟨_, run.linked, linked⟩, journal, fun e mem => ?_⟩,
    fun bounded e mem => (steps e mem).2 fun observation usual => ?_⟩
  · rcases List.mem_append.mp mem with mem | mem
    · exact run.steps e mem
    · exact (steps e mem).1
  · rcases usual with same | empty
    · rwa [same]
    · rw [empty]
      rfl

theorem Device.run_ledger {slots : Slots} (empty : slots.journal = {})
    (faults : ℕ → StorageFaults) (ops : List DeviceOp) :
    LedgerRun (scanSlots slots) (Device.run faults { slots } ops) := by
  refine Device.run_induction ?_ fun device op _ run => (run.step faults op).1
  refine ⟨rfl, ?_, by simp⟩
  show JournalInv slots.journal
  rw [empty]
  exact journalInv_empty

/-- No operation of a history uncovers an instant or lowers a watermark. -/
theorem LedgerRun.ledger {first : Register} {device : Device} (run : LedgerRun first device) :
    device.history.Pairwise fun e f =>
      (∀ {id instant}, Covered e.after.journal id instant → Covered f.before.journal id instant) ∧
      (∀ {id instant}, Watermarked e.after.journal id instant →
        Watermarked f.before.journal id instant) := by
  have related := run.linked.related (R := fun s t : Register =>
    (∀ {id instant}, Covered s.journal id instant → Covered t.journal id instant) ∧
    (∀ {id instant}, Watermarked s.journal id instant → Watermarked t.journal id instant))
    (fun _ => ⟨id, id⟩) (fun h h' => ⟨fun c => h'.1 (h.1 c), fun w => h'.2 (h.2 w)⟩)
    fun e mem => by
      obtain ⟨alarms, -, advances⟩ := (run.steps e mem).advances
      exact ⟨advances.covered, advances.watermarked⟩
  exact related.2.2

/-! ### At most once -/

/-- The operation journaled the occurrence of `d`, admitted or missed. -/
def NewlyJournaled (e : StoreEvent) (d : AlarmDefinition) : Prop :=
  ¬ Journaled e.before.journal d ∧ Journaled e.after.journal d

/-- The occurrence of `d` is the active one. -/
def IsActive (current : Register) (d : AlarmDefinition) : Prop :=
  ∃ a ∈ current.journal.active, a.occurrenceId = makeOccurrenceId d

/-- The journal has a terminal record of the occurrence of `d`. -/
def IsTerminal (current : Register) (d : AlarmDefinition) : Prop :=
  makeOccurrenceId d ∈ current.journal.terminal.map (·.occurrenceId)

theorem LedgerStep.newly {e : StoreEvent} (step : LedgerStep e) {d : AlarmDefinition}
    (newly : NewlyJournaled e d) : Covered e.after.journal d.id d.scheduledUtcSeconds ∧
      ¬ Covered e.before.journal d.id d.scheduledUtcSeconds := by
  obtain ⟨alarms, -, advances⟩ := step.advances
  refine ⟨step.after.covered newly.2, ?_⟩
  rcases advances.journaled newly.2 with earlier | ⟨-, fresh⟩
  · exact absurd earlier newly.1
  · exact fresh

/-- One operation journals at most one occurrence of an alarm. -/
theorem LedgerStep.newly_unique {e : StoreEvent} (step : LedgerStep e) {d d' : AlarmDefinition}
    (newly : NewlyJournaled e d) (newly' : NewlyJournaled e d') (same : d.id = d'.id) :
    makeOccurrenceId d = makeOccurrenceId d' := by
  obtain ⟨alarms, distinct, advances⟩ := step.advances
  rcases advances.journaled newly.2 with earlier | ⟨⟨alarm, mem, name⟩, -⟩
  · exact absurd earlier newly.1
  rcases advances.journaled newly'.2 with earlier | ⟨⟨alarm', mem', name'⟩, -⟩
  · exact absurd earlier newly'.1
  have id : alarm.id = d.id := (makeOccurrenceId_inj name).1
  have id' : alarm'.id = d'.id := (makeOccurrenceId_inj name').1
  obtain rfl := List.inj_on_of_nodup_map distinct mem mem' (id.trans (same.trans id'.symm))
  exact name.symm.trans name'

theorem LedgerStep.not_active {e : StoreEvent} (step : LedgerStep e) {d : AlarmDefinition}
    (watermarked : Watermarked e.before.journal d.id d.scheduledUtcSeconds) :
    ¬ IsActive e.after d := by
  rintro ⟨a, held, same⟩
  obtain ⟨alarms, -, advances⟩ := step.advances
  exact step.after.not_active (advances.watermarked watermarked) a held same

/-- Over every history from an empty journal, whatever the clocks, the schedules, the
boots and the storage do: for each alarm the instants of the occurrences journaled
for the first time strictly increase (one operation journals one of them), no
occurrence is admitted twice, and a terminal one never becomes active again. -/
theorem journaled_at_most_once {slots : Slots} (empty : slots.journal = {})
    (faults : ℕ → StorageFaults) (ops : List DeviceOp) :
    let history := (Device.run faults { slots } ops).history
    (history.Pairwise fun e f => ∀ d d', NewlyJournaled e d → NewlyJournaled f d' →
      d.id = d'.id → d.scheduledUtcSeconds < d'.scheduledUtcSeconds) ∧
    (∀ e ∈ history, ∀ d d', NewlyJournaled e d → NewlyJournaled e d' → d.id = d'.id →
      makeOccurrenceId d = makeOccurrenceId d') ∧
    (history.Pairwise fun e f => ∀ d, ¬ IsActive e.before d → IsActive e.after d →
      ¬ IsActive f.before d → ¬ IsActive f.after d) ∧
    (history.Pairwise fun e f => ∀ d, IsTerminal e.after d → ¬ IsActive f.after d) := by
  intro history
  have run := Device.run_ledger empty faults ops
  have ledger := run.ledger
  refine ⟨?_, fun e mem d d' => (run.steps e mem).newly_unique, ?_, ?_⟩
  · refine ledger.imp_of_mem fun {e f} memE memF ⟨covered, _⟩ d d' newly newly' same => ?_
    obtain ⟨now, -⟩ := (run.steps e memE).newly newly
    obtain ⟨-, fresh⟩ := (run.steps f memF).newly newly'
    refine Int64.not_le.mp fun le => fresh ?_
    rw [← same]
    exact (covered now).le le
  · refine ledger.imp_of_mem fun {e f} memE memF ⟨covered, _⟩ d _ active idle again => ?_
    have now := covered ((run.steps e memE).after.covered (.inl active))
    have last := run.steps f memF
    by_cases journaled : Journaled f.before.journal d
    · have terminal := journaled.resolve_left idle
      exact last.not_active (last.before.watermarked terminal) again
    · exact (last.newly ⟨journaled, .inl again⟩).2 now
  · refine ledger.imp_of_mem fun {e f} memE memF ⟨_, watermarked⟩ d terminal => ?_
    exact (run.steps f memF).not_active (watermarked ((run.steps e memE).after.watermarked terminal))

theorem journal_oneAlarmStore : oneAlarmStore.journal = {} := by
  rw [Slots.journal, Register.journal, scanSlots_oneAlarmStore]
  rfl

/-- The one alarm rings, is dismissed, and the clock goes back to its instant. -/
def rollbackHistory : List DeviceOp :=
  [.tick ⟨true, 1000, 0, [0x31]⟩, .engine (.dismiss [0x77, 0x3a, 0x31, 0x3a, 0x31, 0x30, 0x30, 0x30] false),
    .tick ⟨true, 1000, 60, [0x31]⟩]

theorem journaled_at_most_once_rollback :
    (Device.run (fun _ => {}) { slots := oneAlarmStore } rollbackHistory).history.Pairwise
      fun e f => ∀ d, IsTerminal e.after d → ¬ IsActive f.after d :=
  (journaled_at_most_once journal_oneAlarmStore _ _).2.2.2

/-! ### Every record of a history -/

/-- What every record of a history satisfies. -/
structure SoundRecord (current : Register) : Prop where
  valid : current.status = .loaded → validateSnapshot current.snapshot = true
  notTerminal : ∀ a ∈ current.journal.active,
    a.occurrenceId ∉ current.journal.terminal.map (·.occurrenceId)
  above : ∀ a ∈ current.journal.active, ∀ w ∈ current.journal.terminalHighWatermarks,
    w.alarmId = a.alarmId → w.scheduledUtcSeconds < a.scheduledUtcSeconds
  room : ∀ a ∈ current.journal.active,
    a.alarmId ∈ current.journal.terminalHighWatermarks.map (·.alarmId) ∨
      current.journal.terminalHighWatermarks.length < kTerminalHighWatermarkCapacity

theorem JournalInv.soundRecord {current : Register} (inv : JournalInv current.journal)
    (valid : current.status = .loaded → validateSnapshot current.snapshot = true) :
    SoundRecord current where
  valid := valid
  notTerminal := inv.valid.activeNotTerminal
  above a held w mem same := Int64.not_le.mp fun le => inv.above a held ⟨w, mem, same, le⟩
  room a held := canTrackTerminal_iff.mp (inv.room a held)

/-- The terminal transition of the active occurrence fits the record it is planned on. -/
theorem JournalInv.close_fits {current : Register} (inv : JournalInv current.journal)
    (loaded : current.status = .loaded) (valid : validateSnapshot current.snapshot = true)
    (room : current.generation ≠ uint64Max) {active : ActiveOccurrence}
    (held : current.journal.active = some active) (reason : TerminalReason) :
    Fits current (closeActive current.journal active reason) current.snapshot.revision
      current.generation := by
  obtain ⟨closed, -⟩ := @JournalInv.close [] _ inv active held reason
  have schedule := (validateSnapshot_iff.mp valid).1
  exact ⟨loaded, rfl, rfl, validateSnapshot_iff.mpr ⟨schedule.withJournal _, closed.valid⟩, room⟩

theorem JournalInv.close_stored {slots : Slots} (inv : JournalInv slots.journal)
    (room : (scanSlots slots).generation ≠ uint64Max) {active : ActiveOccurrence}
    (held : slots.journal.active = some active) (reason : TerminalReason) :
    (performStore {} slots (.saveOccurrenceState (closeActive slots.journal active reason)
      (scanSlots slots).snapshot.revision (scanSlots slots).generation)).1.status = .stored := by
  have loaded : (scanSlots slots).status = .loaded := by
    by_contra unloaded
    rw [Slots.journal, Register.journal, if_neg unloaded] at held
    cases held
  have fits := @JournalInv.close_fits (scanSlots slots) inv loaded
    (validateSnapshot_scanSlots loaded).1 room active held reason
  have changed : closeActive slots.journal active reason ≠
      (scanSlots slots).snapshot.occurrenceState := by
    intro same
    have idle := congrArg PersistentAlarmState.active same
    rw [← Register.journal_of_loaded loaded, show Register.journal _ = slots.journal from rfl,
      held] at idle
    cases idle
  have stored := performRegister_fits fits changed
  rw [performStore_simulates] at stored
  exact congrArg (fun done => done.1.status) stored

theorem Device.calls_valid (faults : ℕ → StorageFaults) (device : Device) (op : DeviceOp) :
    ∀ e ∈ device.calls faults op, e.after.status = .loaded →
      validateSnapshot e.after.snapshot = true := by
  intro _ mem loaded
  obtain ⟨e, -, rfl⟩ := List.mem_map.mp mem
  exact (validateSnapshot_scanSlots loaded).1

/-- Every record a history from an empty journal leaves in the store satisfies the
journal invariant, the terminal transition of its active occurrence is stored, and
no journal commit of the history is refused as invalid below the last generation. -/
theorem reachable_journal {slots : Slots} (empty : slots.journal = {})
    (faults : ℕ → StorageFaults) (ops : List DeviceOp)
    (bounded : ∀ op ∈ ops,
      validOptionalString op.observation.bootId kMaximumBootIdBytes = true) :
    let device := Device.run faults { slots } ops
    SoundRecord device.current ∧
    (∀ active reason, device.current.journal.active = some active →
      device.current.generation ≠ uint64Max →
      (performStore {} device.slots
        (.saveOccurrenceState (closeActive device.current.journal active reason)
          device.current.snapshot.revision device.current.generation)).1.status = .stored) ∧
    ∀ e ∈ device.history, SoundRecord e.after ∧ Accepted e := by
  intro device
  have run := Device.run_ledger empty faults ops
  refine ⟨run.journal.soundRecord fun loaded => (validateSnapshot_scanSlots loaded).1,
    fun active reason held room => run.journal.close_stored room held reason, ?_⟩
  have accepted : LedgerRun (scanSlots slots) device ∧ ∀ e ∈ device.history,
      (e.after.status = .loaded → validateSnapshot e.after.snapshot = true) ∧ Accepted e := by
    refine Device.run_induction
      (motive := fun device => LedgerRun (scanSlots slots) device ∧ ∀ e ∈ device.history,
        (e.after.status = .loaded → validateSnapshot e.after.snapshot = true) ∧ Accepted e)
      ⟨Device.run_ledger empty faults [], by simp⟩ fun before op mem earlier => ?_
    obtain ⟨next, accepted⟩ := earlier.1.step faults op
    refine ⟨next, fun e done => ?_⟩
    rcases List.mem_append.mp done with done | done
    · exact earlier.2 e done
    · exact ⟨before.calls_valid faults op e done, accepted (bounded op mem) e done⟩
  intro e mem
  obtain ⟨valid, accepted⟩ := accepted.2 e mem
  exact ⟨(run.steps e mem).after.soundRecord valid, accepted⟩

theorem reachable_journal_rollback :
    SoundRecord (Device.run (fun _ => {}) { slots := oneAlarmStore } rollbackHistory).current :=
  (reachable_journal journal_oneAlarmStore _ _ (by decide)).1

end DawnDock
