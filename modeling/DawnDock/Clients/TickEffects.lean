import DawnDock.Clients.EvaluationEffects

/-!
What a tick reports, against the durable journal.

Settling and reconciliation report what they have committed, and the evaluation also the
transition whose commit failed. And a tick that ends the active occurrence and then misses
32 others evicts the record it reported first.

* `reported_effects_durable`: the effects of a tick hold when it returns, exactly if
  every commit of its evaluation becomes durable and none evicts that record.
* `reported_although_lost`: one that does not.
-/

namespace DawnDock

open AtomicProgram

section

variable {allowed : StorageFaults → Prop} {first : ScheduleSnapshot}
  {state : PersistentAlarmState} {current : Register} {log : StoreLog}

/-! ### Settling -/

/-- A load, and calls that load no more. -/
def LoadsOnce (log log' : StoreLog) : Prop :=
  ∃ load own, load.call = .load ∧ log' = log ++ load :: own ∧ ∀ e ∈ own, e.call ≠ .load

/-- What settling leaves: it reports nothing it has not committed. -/
def SettleReported (first : ScheduleSnapshot) (began : PersistentAlarmState)
    (observation : RuntimeTickObservation) (bootPending : Bool) (before : RuntimeTickResult) :
    Except RuntimeTickResult RuntimeTickResult → Register → Prop
  | .error final, _ => final.effects = before.effects
  | .ok final, after => SameRecord first after ∧ Tracked began after.journal ∧
      ∃ pushed, final.effects = before.effects ++ pushed ∧
      (∀ effect ∈ pushed, effect.StandsIn first after.journal ∧
        (bootPending = true →
          effect.StandsIn first (advanceActive after.journal observation.monotonicSeconds).2)) ∧
      ∀ journal, (∀ effect ∈ pushed, effect.RecordedIn journal) ↔
        Kept began after.journal journal

/-- A boot that is settled without a commit reports nothing. -/
theorem holds_settled_idle {observation : RuntimeTickObservation}
    (keeps : (settleTransition state observation true).1.persistBeforeEffects = false)
    (journal : PersistentAlarmState) :
    let done := settleTransition state observation true
    Holds first .activeLifecycle done.1.status done.1.occurrenceId journal := by
  revert keeps
  simp only [settleTransition, if_true, recoverAfterReboot]
  repeat' split
  all_goals
    intro keeps
    trivial

/-- A settled occurrence that is closed is recorded last, and the one effect says so. -/
theorem settled_records {journal : PersistentAlarmState} {active : ActiveOccurrence}
    {done : EvaluationResult × PersistentAlarmState} (held : journal.active = some active)
    (unrecorded : ¬ Recorded journal active.occurrenceId)
    (progress : Progress journal active done) (alarmId : Text) :
    Tracked journal done.2 ∧ ∀ final,
      (∀ effect ∈ [settleEffect alarmId done.1], effect.RecordedIn final) ↔
        Kept journal done.2 final := by
  have only : Kept journal done.2 = fun final =>
      done.2.active = none → Recorded final active.occurrenceId := by
    funext final
    simp [Kept, held]
  rw [only]
  simp only [List.mem_singleton, forall_eq]
  cases progress with
  | goesOn opens going name kept =>
      refine ⟨⟨?_, ?_⟩, fun final => ⟨fun _ idle => ?_, fun _ closes => absurd closes opens⟩⟩
      · intro b held'
        obtain rfl := Option.some.inj (going.symm.trans held')
        exact ⟨active, held, name.symm⟩
      · intro a held'
        obtain rfl := Option.some.inj (held.symm.trans held')
        exact .inr ⟨by simp [going], by rwa [Recorded, kept]⟩
      · rw [going] at idle
        cases idle
  | @closes result reason closing persists name =>
      refine ⟨⟨fun b held' => by (cases held'), fun a held' => ?_⟩, fun final => ?_⟩
      · obtain rfl := Option.some.inj (held.symm.trans held')
        exact .inl ⟨rfl, behind_closeActive unrecorded _⟩
      · have effect : (settleEffect alarmId result).RecordedIn final ↔
            Recorded final active.occurrenceId := by
          rw [RuntimeTickEffect.RecordedIn,
            show (settleEffect alarmId result).occurrenceId = active.occurrenceId from name]
          exact forall_prop_of_true closing
        rw [effect]
        exact ⟨fun recorded _ => recorded, fun kept => kept rfl⟩

section Settled

variable {observation : RuntimeTickObservation} {bootPending : Bool}
  {result final : RuntimeTickResult} {active : ActiveOccurrence} (same : SameRecord first current)
  (began : current.journal.active = some active)
  (unrecorded : ¬ Recorded current.journal active.occurrenceId)
  (journaled : current.journal = current.snapshot.occurrenceState)
  (reported : final.effects = result.effects ++ [settleEffect active.alarmId
    (settleTransition current.snapshot.occurrenceState observation bootPending).1])

include same began unrecorded journaled reported

/-- An occurrence that goes on without a commit. -/
theorem settleReported_idle
    (persists : (settleTransition current.snapshot.occurrenceState observation
      bootPending).1.persistBeforeEffects = false) :
    SettleReported first current.journal observation bootPending result (.ok final) current := by
  have progress := settleTransition_progress began observation bootPending
  rw [journaled] at progress
  have opens := progress.opens persists
  refine ⟨same, ⟨?_, ?_⟩, [settleEffect active.alarmId _], reported, ?_, fun later => ?_⟩
  · exact fun b held => ⟨b, held, rfl⟩
  · intro a held
    obtain rfl := Option.some.inj (began.symm.trans held)
    exact .inr ⟨by simp [began], unrecorded⟩
  · simp only [List.mem_singleton, forall_eq]
    refine ⟨?_, ?_⟩
    · rw [journaled]
      exact (holds_settleTransition same.occurrence bootPending).1 persists
    · rintro rfl
      exact holds_settled_idle persists _
  · refine ⟨fun _ a _ idle => ?_, fun _ effect mem closes => ?_⟩
    · rw [began] at idle
      cases idle
    · obtain rfl := List.mem_singleton.mp mem
      exact absurd closes opens

/-- A transition whose commit is confirmed. -/
theorem settleReported_commit {after : Register}
    (boot : bootPending = true → observation.bootId ≠ [])
    (persists : (settleTransition current.snapshot.occurrenceState observation
      bootPending).1.persistBeforeEffects = true) (isLoaded : after.status = .loaded)
    (committed : after.journal =
      (settleTransition current.snapshot.occurrenceState observation bootPending).2)
    (alarms : after.snapshot.alarms = current.snapshot.alarms) :
    SettleReported first current.journal observation bootPending result (.ok final) after := by
  have held : current.snapshot.occurrenceState.active = some active := journaled ▸ began
  have progress := settleTransition_progress held observation bootPending
  have step : TickStep first.alarms observation current.snapshot.occurrenceState _ _ :=
    ((settleTransition_transition first.alarms _ boot).resolve_left fun quiet => by
      rw [persists] at quiet
      cases quiet.1).2
  have moved := (@holds_settleTransition first observation current.snapshot.occurrenceState
    same.occurrence bootPending).2 persists
  obtain ⟨tracked, records⟩ := settled_records held (journaled ▸ unrecorded) progress
    active.alarmId
  refine ⟨⟨alarms.trans same.alarms, ?_⟩, ?_, [settleEffect active.alarmId _], reported, ?_, ?_⟩
  · rw [← Register.journal_of_loaded isLoaded, committed]
    exact same.occurrence.step (by simp [held]) step
  · rw [committed, journaled]
    exact tracked
  · simp only [List.mem_singleton, forall_eq]
    rw [committed]
    refine ⟨moved, ?_⟩
    rintro rfl
    exact holds_advanceActive_settled persists moved
  · rw [committed, journaled]
    exact records

end Settled

theorem ensures_settleActiveOccurrence {observation : RuntimeTickObservation} {bootPending : Bool}
    {result : RuntimeTickResult} (boot : bootPending = true → observation.bootId ≠ [])
    (isLoaded : current.status = .loaded) (valid : ValidJournal current.snapshot.occurrenceState)
    (same : SameRecord first current) :
    Ensures (Answers allowed) (fun out log' after =>
      SettleReported first current.journal observation bootPending result out after ∧
      ∃ own, log' = log ++ own ∧ (∀ e ∈ own, e.call ≠ .load) ∧ KeepsEnded current.journal own)
      (settleActiveOccurrence current observation bootPending result) log current := by
  unfold settleActiveOccurrence
  have journaled := Register.journal_of_loaded isLoaded
  split
  · rename_i idle
    have began : current.journal.active = none := by rw [journaled, idle]
    refine ⟨⟨same, ⟨?_, ?_⟩, [], by simp, by simp, ?_⟩, [], by simp, by simp, ?_⟩
    all_goals simp [Kept, KeepsEnded, began]
  rename_i active held
  have began : current.journal.active = some active := by rw [journaled, held]
  have unrecorded : ¬ Recorded current.journal active.occurrenceId := by
    rw [journaled]
    exact valid.activeNotTerminal active held
  dsimp only
  split
  · exact ⟨rfl, [], by simp, by simp, by simp [KeepsEnded, Stays]⟩
  cases persists : (settleTransition current.snapshot.occurrenceState observation
    bootPending).1.persistBeforeEffects with
  | false =>
      rw [if_neg (by simp)]
      exact ⟨settleReported_idle same began unrecorded journaled rfl persists, [], by simp,
        by simp, by simp [KeepsEnded, Stays]⟩
  | true =>
      rw [if_pos rfl]
      refine ensures_saveOccurrenceState.bind ?_
      rintro committed log' after ⟨rfl, outcome⟩
      have keeps (e : StoreEvent) (before : e.before = current) :
          KeepsEnded current.journal [e] := by
        intro a held' f mem recorded
        obtain rfl := Option.some.inj (began.symm.trans held')
        obtain rfl := List.mem_singleton.mp mem
        rw [before] at recorded
        exact absurd recorded unrecorded
      by_cases confirmed : committed.status.committed = true
      · obtain ⟨isLoaded', journaled', alarms⟩ := outcome.confirmed confirmed
        simp only [confirmed, Bool.not_true, Bool.false_eq_true, if_false]
        exact ⟨settleReported_commit same began unrecorded journaled rfl boot persists isLoaded'
          journaled' alarms, [_], rfl, by simp, keeps _ rfl⟩
      · have failed : committed.status.committed = false := by simpa using confirmed
        simp only [failed, Bool.not_false, if_true]
        exact ⟨rfl, [_], rfl, by simp, keeps _ rfl⟩

theorem ensures_settleLoaded {observation : RuntimeTickObservation} {bootPending : Bool}
    {result : RuntimeTickResult} (boot : bootPending = true → observation.bootId ≠ [])
    (same : current.status = .loaded → SameRecord first current) :
    Ensures (Answers allowed) (fun out log' after =>
      SettleReported first current.journal observation bootPending result out after ∧
      LoadsOnce log log' ∧ ∃ own, log' = log ++ own ∧ KeepsEnded current.journal own)
      (settleLoaded observation bootPending result) log current := by
  unfold settleLoaded
  refine (ensures_load allowed log current).bind ?_
  rintro loaded log' after ⟨rfl, rfl, returned⟩
  split
  · exact ⟨rfl, ⟨⟨after, .load, loaded, after⟩, [], rfl, rfl, by simp⟩, _, rfl,
      by simp [KeepsEnded, Stays]⟩
  rename_i isLoaded
  obtain ⟨rfl, valid⟩ := returned (not_not.mp isLoaded)
  have isLoaded := not_not.mp isLoaded
  refine (ensures_settleActiveOccurrence boot isLoaded (validateSnapshot_iff.mp valid).2
    (same isLoaded)).post ?_
  rintro out log' after ⟨reported, own, rfl, quiet, keeps⟩
  refine ⟨?_, ⟨⟨loaded, .load, loaded, loaded⟩, own, rfl, by simp, quiet⟩,
    ⟨loaded, .load, loaded, loaded⟩ :: own, by simp, fun a held e mem => ?_⟩
  · cases out with
    | error final => exact reported
    | ok final => exact reported
  · rcases List.mem_cons.mp mem with rfl | mem
    · exact id
    · exact keeps a held e mem

/-! ### Reconciliation -/

theorem standsIn_reconciliationEffect (recovery : InvalidTimeRecoveryResult)
    (crossed : RecoveredOccurrence) (journal : PersistentAlarmState) :
    (reconciliationEffect recovery crossed).StandsIn first journal ↔
      Holds first .reconciliation crossed.outcome crossed.occurrenceId journal := by
  unfold reconciliationEffect
  dsimp only
  split
  · rfl
  · rfl

theorem recordedIn_reconciliationEffect (recovery : InvalidTimeRecoveryResult)
    (crossed : RecoveredOccurrence) (journal : PersistentAlarmState) :
    (reconciliationEffect recovery crossed).RecordedIn journal ↔
      (Closes crossed.outcome → Recorded journal crossed.occurrenceId) := by
  unfold reconciliationEffect
  dsimp only
  split
  · rfl
  · rfl

/-- What a batch reports of its occurrences. -/
theorem holds_reconciledRecords {older : List StoredAlarmDefinition}
    {newest : StoredAlarmDefinition} {newestRings : Bool}
    {wallUtcSeconds monotonicSeconds lateness : Int64} {journal : PersistentAlarmState}
    (idle : state.active = none) (sub : ∀ alarm ∈ older ++ [newest], alarm ∈ first.alarms)
    (distinct : newest.id ∉ older.map (·.id))
    (accepted : reconcileJournal state older newest newestRings wallUtcSeconds monotonicSeconds =
      some journal) :
    ∀ crossed ∈ reconciledRecords older newest newestRings lateness,
      Holds first .reconciliation crossed.outcome crossed.occurrenceId journal := by
  obtain ⟨middle, missed, -, rfl⟩ := reconcileJournal_eq_some accepted
  have closed := closed_foldlM_journalMissed idle missed
  have middleIdle : middle.active = none := (foldlM_journalMissed_active missed).trans idle
  have named (alarm : StoredAlarmDefinition) (mem : alarm ∈ older ++ [newest]) :
      Names first .reconciliation (makeOccurrenceId alarm.definition) alarm.id
        alarm.scheduledUtcSeconds := ⟨alarm, sub alarm mem, rfl, rfl, rfl⟩
  intro crossed record
  rcases List.mem_append.mp record with missed | last
  · obtain ⟨alarm, mem, rfl⟩ := List.mem_map.mp missed
    refine ⟨_, _, named alarm (List.mem_append_left _ mem), ?_⟩
    cases newestRings with
    | false => exact (closed alarm mem).miss newest .invalidTime
    | true =>
        refine ⟨(closed alarm mem).watermark, ?_⟩
        rintro a held same
        obtain rfl := Option.some.inj held
        exact absurd (List.mem_map.mpr ⟨alarm, mem, same.symm⟩) distinct
  · obtain rfl := List.mem_singleton.mp last
    cases newestRings with
    | false => exact ⟨_, _, named newest (by simp), closed_missOccurrence middleIdle _⟩
    | true => exact ⟨_, rfl, rfl, rfl⟩

theorem behind_foldlM_journalMissed {older : List StoredAlarmDefinition} {count : ℕ}
    {occurrenceId : Text} {final : PersistentAlarmState} (behind : Behind count state occurrenceId)
    (missed : older.foldlM journalMissed state = some final)
    (room : count + older.length < kRecentTerminalRetention) :
    Behind (count + older.length) final occurrenceId := by
  induction older generalizing state count with
  | nil =>
      cases missed
      exact behind
  | cons alarm rest ih =>
      obtain ⟨middle, first, rest⟩ := Option.bind_eq_some_iff.mp missed
      obtain ⟨-, rfl⟩ := journalMissed_eq_some first
      rw [List.length_cons] at room ⊢
      rcases behind.append ⟨makeOccurrenceId alarm.definition, .invalidTime⟩ with next | full
      · rw [Behind, ← missOccurrence_terminal] at next
        have last := ih next rest (by omega)
        rwa [Nat.add_assoc, Nat.add_comm 1] at last
      · omega

/-- A batch of fewer than 32 evicts no record that was the last. -/
theorem recorded_reconcileJournal {older : List StoredAlarmDefinition}
    {newest : StoredAlarmDefinition} {newestRings : Bool} {occurrenceId : Text}
    {wallUtcSeconds monotonicSeconds : Int64} {journal : PersistentAlarmState}
    (behind : Behind 0 state occurrenceId)
    (accepted : reconcileJournal state older newest newestRings wallUtcSeconds monotonicSeconds =
      some journal) (few : older.length + 1 < kRecentTerminalRetention) :
    Recorded journal occurrenceId := by
  obtain ⟨middle, missed, room, rfl⟩ := reconcileJournal_eq_some accepted
  cases newestRings with
  | true => exact (behind_foldlM_journalMissed behind missed (by omega)).recorded
  | false =>
      have all := missAll_snoc missed room
      exact (behind_foldlM_journalMissed behind all (by simpa using few)).recorded

/-- The batch keeps the records of all the occurrences it reports as missed. -/
theorem recorded_reconciledRecords {older : List StoredAlarmDefinition}
    {newest : StoredAlarmDefinition} {newestRings : Bool}
    {wallUtcSeconds monotonicSeconds lateness : Int64} {journal : PersistentAlarmState}
    (few : state.terminal.length ≤ kRecentTerminalRetention)
    (fresh : ∀ alarm ∈ older ++ [newest],
      makeOccurrenceId alarm.definition ∉ state.terminal.map (·.occurrenceId))
    (distinct : ((older ++ [newest]).map (·.id)).Nodup)
    (short : (older ++ [newest]).length ≤ kRecentTerminalRetention)
    (accepted : reconcileJournal state older newest newestRings wallUtcSeconds monotonicSeconds =
      some journal) :
    ∀ crossed ∈ reconciledRecords older newest newestRings lateness,
      Closes crossed.outcome → Recorded journal crossed.occurrenceId := by
  obtain ⟨middle, missed, room, rfl⟩ := reconcileJournal_eq_some accepted
  rw [List.length_append, List.length_singleton] at short
  intro crossed record closes
  cases newestRings with
  | true =>
      have terminal := missAll_terminal few (fun alarm mem => fresh alarm
        (List.mem_append_left _ mem)) (distinct.sublist (List.sublist_append_left _ _ |>.map _))
        missed
      rcases List.mem_append.mp record with older | last
      · obtain ⟨alarm, mem, rfl⟩ := List.mem_map.mp older
        refine List.mem_map.mpr ⟨invalidTimeRecord alarm, ?_, rfl⟩
        show _ ∈ middle.terminal
        rw [terminal]
        exact mem_retain (by rw [List.length_map]; omega) (List.mem_map_of_mem mem)
      · obtain rfl := List.mem_singleton.mp last
        rcases closes with closes | closes <;> cases closes
  | false =>
      have terminal := missAll_terminal few fresh distinct (missAll_snoc missed room)
      obtain ⟨alarm, mem, name⟩ : ∃ alarm ∈ older ++ [newest],
          crossed.occurrenceId = makeOccurrenceId alarm.definition := by
        rcases List.mem_append.mp record with older | last
        · obtain ⟨alarm, mem, rfl⟩ := List.mem_map.mp older
          exact ⟨alarm, List.mem_append_left _ mem, rfl⟩
        · obtain rfl := List.mem_singleton.mp last
          exact ⟨newest, by simp, rfl⟩
      rw [name]
      refine List.mem_map.mpr ⟨invalidTimeRecord alarm, ?_, rfl⟩
      show _ ∈ (missOccurrence middle newest .invalidTime).terminal
      rw [terminal]
      exact mem_retain (by simpa using short) (List.mem_map_of_mem mem)

/-- The tick steps of an idle journal keep what holds. -/
theorem keeps_tickSteps {observation : RuntimeTickObservation} {edges : List AlertEdge}
    {journal : PersistentAlarmState} (idle : state.active = none)
    (steps : TickSteps first.alarms observation state edges journal) :
    Keeps first state journal := by
  intro effect holds
  exact Holds.steps holds (not_or.mp fun active => Holds.busy holds active idle) steps

/-- What a reconciliation leaves: what held is kept, and what it reports holds. -/
structure RecoveryReported (first : ScheduleSnapshot) (began journal : PersistentAlarmState)
    (log : StoreLog) (recovery : InvalidTimeRecoveryResult) (log' : StoreLog) (after : Register) :
    Prop where
  keeps : Keeps first journal after.journal
  crossed : recovery.status = .reconciled → ∀ crossed ∈ recovery.crossed,
    Holds first .reconciliation crossed.outcome crossed.occurrenceId after.journal ∧
      (Closes crossed.outcome → Recorded after.journal crossed.occurrenceId)
  records : ∃ own, log' = log ++ own ∧
    (Kept began journal after.journal ↔ KeepsEnded began own) ∧
    (first.alarms.length < kRecentTerminalRetention → KeepsEnded began own)

/-- A reconciliation that only loads. -/
theorem recovery_untouched {began : PersistentAlarmState} (tracked : Tracked began current.journal)
    (loaded : LoadResult) {recovery : InvalidTimeRecoveryResult}
    (status : recovery.status ≠ .reconciled) :
    RecoveryReported first began current.journal log recovery
      (log ++ [⟨current, .load, loaded, current⟩]) current := by
  have keeps : KeepsEnded began [⟨current, .load, loaded, current⟩] := by
    simp [KeepsEnded, Stays]
  exact ⟨fun _ => id, fun reconciled => absurd reconciled status, _, rfl,
    ⟨fun _ => keeps, fun _ => tracked.kept⟩, fun _ => keeps⟩

section Batch

variable {snapshot : ScheduleSnapshot} {wallUtcSeconds monotonicSeconds lateness : Int64}
  {newest : StoredAlarmDefinition} {newestRings : Bool} {journal : PersistentAlarmState}
  (alarms : snapshot.alarms = first.alarms)
  (last : (crossedCandidates snapshot wallUtcSeconds).getLast? = some newest)
  (accepted : reconcileJournal snapshot.occurrenceState
    (crossedCandidates snapshot wallUtcSeconds).dropLast newest newestRings wallUtcSeconds
    monotonicSeconds = some journal)

include alarms last accepted

/-- The occurrences of a batch hold in its journal, and are recorded there. -/
theorem batch_crossed (schedule : ValidSchedule snapshot)
    (valid : ValidJournal snapshot.occurrenceState) (idle : snapshot.occurrenceState.active = none) :
    ∀ crossed ∈ reconciledRecords (crossedCandidates snapshot wallUtcSeconds).dropLast newest
        newestRings lateness,
      Holds first .reconciliation crossed.outcome crossed.occurrenceId journal ∧
        (Closes crossed.outcome → Recorded journal crossed.occurrenceId) := by
  have whole := List.dropLast_append_getLast? newest last
  have members (alarm : StoredAlarmDefinition)
      (mem : alarm ∈ (crossedCandidates snapshot wallUtcSeconds).dropLast ++ [newest]) :=
    mem_crossedCandidates.mp (whole ▸ mem)
  intro crossed record
  refine ⟨holds_reconciledRecords idle (fun alarm mem => alarms ▸ (members alarm mem).1)
      (crossedCandidates_newest schedule.ids last) accepted crossed record,
    recorded_reconciledRecords valid.terminalCount
      (fun alarm mem => unrecorded_of_crossed (members alarm mem).2) ?_ ?_ accepted crossed record⟩
  · rw [whole]
    exact nodup_crossedCandidates schedule.ids
  · rw [whole]
    exact length_crossedCandidates schedule

/-- The record of an occurrence that ended before the batch: whether it is kept is up to the
commit, and with fewer than 32 alarms it is. -/
theorem batch_keepsEnded {began : PersistentAlarmState} {loaded : Register} {e : StoreEvent}
    (tracked : Tracked began loaded.journal) (idle : loaded.journal.active = none)
    (journaled : loaded.journal = snapshot.occurrenceState) (before : e.before = loaded)
    (moves : e.after.journal = loaded.journal ∨ e.after.journal = journal) :
    (Kept began loaded.journal e.after.journal ↔
        KeepsEnded began [⟨loaded, .load, loaded, loaded⟩, e]) ∧
      (first.alarms.length < kRecentTerminalRetention →
        KeepsEnded began [⟨loaded, .load, loaded, loaded⟩, e]) := by
  have kept : Kept began loaded.journal e.after.journal ↔
      KeepsEnded began [⟨loaded, .load, loaded, loaded⟩, e] := by
    rw [keepsEnded_load (by rfl)]
    exact tracked.kept_iff idle (.inr ⟨e, rfl, congrArg _ before, rfl⟩)
  refine ⟨kept, fun spare => kept.mp fun a held ended => ?_⟩
  have recorded := tracked.kept a held ended
  rcases moves with same | moved
  · rwa [same]
  · have few := length_crossedCandidates_le snapshot wallUtcSeconds
    have some := List.length_pos_of_mem (List.mem_of_getLast? last)
    rw [alarms] at few
    rw [moved]
    refine recorded_reconcileJournal (journaled ▸ tracked.behind idle a held) accepted ?_
    rw [List.length_dropLast]
    omega

end Batch

theorem ensures_reconcileAfterTimeValid {began : PersistentAlarmState}
    (observation : RuntimeTickObservation)
    (same : current.status = .loaded → SameRecord first current)
    (tracked : Tracked began current.journal) :
    Ensures (Answers allowed) (RecoveryReported first began current.journal log)
      (reconcileAfterTimeValid observation.wallUtcSeconds observation.monotonicSeconds true)
      log current := by
  unfold reconcileAfterTimeValid
  rw [if_neg (by simp)]
  refine (ensures_load allowed log current).bind ?_
  rintro loaded log' after ⟨rfl, rfl, returned⟩
  split
  · refine recovery_untouched tracked loaded ?_
    simp only [unloadedRecoveryStatus]
    repeat' split
    all_goals simp
  rename_i isLoaded
  obtain ⟨rfl, valid⟩ := returned (not_not.mp isLoaded)
  have isLoaded := not_not.mp isLoaded
  have journaled := Register.journal_of_loaded isLoaded
  have alarms := (same isLoaded).alarms
  obtain ⟨schedule, journal'⟩ := validateSnapshot_iff.mp valid
  dsimp only
  split
  · exact recovery_untouched tracked _ (by simp)
  rename_i idle
  have idle : loaded.snapshot.occurrenceState.active = none := by simpa using idle
  split
  · exact recovery_untouched tracked _ (by simp)
  rename_i newest last
  split
  · exact recovery_untouched tracked _ (by simp)
  rename_i lateness elapsed
  split
  · exact recovery_untouched tracked _ (by simp)
  rename_i journal accepted
  have steps := reconcileJournal_steps schedule.ids idle last elapsed accepted
  rw [alarms] at steps
  have keeps := keeps_tickSteps idle steps
  refine ensures_saveOccurrenceState.bind ?_
  rintro committed log' after ⟨rfl, outcome⟩
  have records := @batch_keepsEnded first loaded.snapshot _ _ newest _ journal alarms last accepted
    began loaded ⟨loaded, .saveOccurrenceState journal loaded.snapshot.revision loaded.generation,
      committed, after⟩ tracked (by rw [journaled, idle]) journaled rfl
    outcome.journal_cases
  by_cases confirmed : committed.status.committed = true
  · obtain ⟨-, left, -⟩ := outcome.confirmed confirmed
    simp only [confirmed, Bool.not_true, Bool.false_eq_true, if_false]
    refine ⟨by rwa [journaled, left], fun _ => ?_, _, List.append_assoc _ _ _, records⟩
    rw [left]
    exact batch_crossed alarms last accepted schedule journal' idle
  · have failed : committed.status.committed = false := by simpa using confirmed
    simp only [failed, Bool.not_false, if_true]
    refine ⟨?_, ?_, _, List.append_assoc _ _ _, records⟩
    · rcases outcome.journal_cases with left | left
      · rw [left]
        exact fun _ => id
      · rwa [journaled, left]
    · split <;> simp

end

/-! ### The tick -/

/-- The calls behind the `n`-th load. -/
def behindLoads : ℕ → StoreLog → StoreLog
  | 0, log => log
  | _ + 1, [] => []
  | n + 1, e :: rest => if e.call = .load then behindLoads n rest else behindLoads (n + 1) rest

theorem behindLoads_skip {own : StoreLog} (quiet : ∀ e ∈ own, e.call ≠ .load) (n : ℕ)
    (rest : StoreLog) : behindLoads (n + 1) (own ++ rest) = behindLoads (n + 1) rest := by
  induction own with
  | nil => rfl
  | cons e own ih =>
      rw [List.cons_append, behindLoads, if_neg (quiet e List.mem_cons_self)]
      exact ih fun f mem => quiet f (List.mem_cons_of_mem _ mem)

theorem behindLoads_load {load : StoreEvent} (loads : load.call = .load) (n : ℕ)
    (rest : StoreLog) : behindLoads (n + 1) (load :: rest) = behindLoads n rest := by
  rw [behindLoads, if_pos loads]

theorem behindLoads_nil (n : ℕ) : behindLoads n [] = [] := by
  cases n <;> rfl

/-- Every commit of a tick's evaluation becomes durable. The evaluation has the calls
behind its own load, the second one of a tick that settles a boot. -/
def EvaluationLands (state : RuntimeCoordinatorState) (observation : RuntimeTickObservation)
    (calls : StoreLog) : Prop :=
  ∀ e ∈ behindLoads (if isBootPending state observation then 2 else 1) calls, Lands e

section

variable {allowed : StorageFaults → Prop} {current : Register} {state : RuntimeCoordinatorState}
  {observation : RuntimeTickObservation}

/-- The record of a tick without a writer beside it. -/
theorem sameRecord_refl (current : Register) : SameRecord current.snapshot current where
  alarms := rfl
  occurrence a held := ⟨a, held, rfl, rfl, rfl⟩

theorem tracked_refl {journal : PersistentAlarmState}
    (unrecorded : ∀ a ∈ journal.active, ¬ Recorded journal a.occurrenceId) :
    Tracked journal journal where
  origin b held := ⟨b, held, rfl⟩
  stands a held := .inr ⟨Option.ne_none_iff_exists'.mpr ⟨a, held⟩, unrecorded a held⟩

/-- A schedule of fewer than 32 alarms evicts no record the tick reports. -/
def Spares (current : Register) (log : StoreLog) : Prop :=
  current.snapshot.alarms.length < kRecentTerminalRetention → KeepsEnded current.journal log

/-- A tick that owes a reconciliation reports what is durable; the records it reports are
kept exactly if no call evicts that of the occurrence it ended. -/
theorem ensures_latchedTick :
    Ensures (Answers allowed) (fun done log after =>
      (∀ effect ∈ done.1.effects, effect.StandsIn current.snapshot after.journal) ∧
        ((∀ effect ∈ done.1.effects, effect.RecordedIn after.journal) ↔
          KeepsEnded current.journal log) ∧
        Spares current log) (latchedTick state observation) [] current := by
  unfold latchedTick
  refine (@ensures_settleLoaded _ current.snapshot current [] _ _ _ bootId_of_pending
    fun _ => sameRecord_refl current).bind ?_
  rintro (result | result) log middle ⟨reported, -, own, rfl, keeps⟩
  · have silent : result.effects = [] := reported
    show (∀ effect ∈ result.effects, _) ∧ ((∀ effect ∈ result.effects, _) ↔ _) ∧ _
    rw [silent]
    exact ⟨by simp, by simpa using keeps, fun _ => keeps⟩
  obtain ⟨same, tracked, pushed, effects, holds, settled⟩ := reported
  refine (ensures_reconcileAfterTimeValid observation (fun _ => same) tracked).bind ?_
  rintro recovery log' after ⟨kept, crossed, more, rfl, records, spares⟩
  have reconciled : ∀ effect ∈ (if recovery.status = .reconciled then
      recovery.crossed.map (reconciliationEffect recovery) else []),
      effect.StandsIn current.snapshot after.journal ∧ effect.RecordedIn after.journal := by
    intro effect mem
    split at mem
    · rename_i status
      obtain ⟨record, isCrossed, rfl⟩ := List.mem_map.mp mem
      rw [standsIn_reconciliationEffect, recordedIn_reconciliationEffect]
      exact crossed status record isCrossed
    · cases mem
  show (∀ effect ∈ result.effects ++ _, _) ∧ ((∀ effect ∈ result.effects ++ _, _) ↔ _) ∧ _
  rw [effects, List.nil_append, List.forall_mem_append, List.forall_mem_append, settled, records,
    keepsEnded_append]
  refine ⟨⟨fun effect mem => kept effect (holds effect mem).1,
    fun effect mem => (reconciled effect mem).1⟩, ?_,
    fun few => keepsEnded_append.mpr ⟨keeps, spares few⟩⟩
  exact ⟨fun whole => ⟨keeps, whole.1⟩,
    fun whole => ⟨whole.2, fun effect mem => (reconciled effect mem).2⟩⟩

/-- What the evaluation of a tick reports and leaves. -/
structure EvaluationTicked (first : ScheduleSnapshot) (began journal : PersistentAlarmState)
    (observation : RuntimeTickObservation) (before final : RuntimeTickResult)
    (pushed : List RuntimeTickEffect) (own : StoreLog) (after : Register) : Prop where
  effects : final.effects = before.effects ++ pushed
  stands : (∀ e ∈ own, Lands e) ↔ ∀ effect ∈ pushed, effect.StandsIn first after.journal
  keeps : ∀ effect : RuntimeTickEffect, effect.StandsIn first journal →
    effect.StandsIn first (advanceActive journal observation.monotonicSeconds).2 →
      effect.StandsIn first after.journal
  records : (∀ e ∈ own, Lands e) → ((Kept began journal after.journal ∧
    ∀ effect ∈ pushed, effect.RecordedIn after.journal) ↔ KeepsEnded began own)
  spares : first.alarms.length < kRecentTerminalRetention → KeepsEnded began own

/-- The evaluation of a tick reports what is durable exactly if its commits become
durable. -/
theorem ensures_evaluationTick {first : ScheduleSnapshot} {began : PersistentAlarmState}
    {log : StoreLog} {result : RuntimeTickResult}
    (same : current.status = .loaded → SameRecord first current)
    (tracked : Tracked began current.journal) :
    Ensures (Answers allowed) (fun final log' after =>
      ∃ load own pushed, load.call = .load ∧ load.before.journal = load.after.journal ∧
        log' = log ++ load :: own ∧
        EvaluationTicked first began current.journal observation result final pushed own after)
      (evaluationTick observation result) log current := by
  refine (ensures_evaluateCommittedSchedule _ _ same tracked).bind ?_
  rintro evaluation log' after
    ⟨⟨load, loads, quiet, own, alarms, rfl, -, pushed, reports, records⟩, keeps⟩
  refine ⟨load, own, alarms.map evaluationEffect, loads, quiet, by simp, ?_, ?_, keeps, ?_,
    records.spares⟩
  · rw [pushed]
    rfl
  · rw [reports]
    simp
  · simpa using records.kept

theorem ensures_unlatchedTick (unlatched : state.reconciliationPending = false)
    (unrecorded : ∀ a ∈ current.journal.active, ¬ Recorded current.journal a.occurrenceId) :
    Ensures (Answers allowed) (fun done log after =>
      ((∀ effect ∈ done.1.effects, effect.StandsIn current.snapshot after.journal) ↔
        EvaluationLands state observation log) ∧
      (EvaluationLands state observation log →
        ((∀ effect ∈ done.1.effects, effect.RecordedIn after.journal) ↔
          KeepsEnded current.journal log)) ∧
      Spares current log) (runRuntimeTick state observation) [] current := by
  have nothing {effects : List RuntimeTickEffect} {journal : PersistentAlarmState}
      {calls : StoreLog} (silent : effects = [])
      (empty : behindLoads (if isBootPending state observation then 2 else 1) calls = [])
      (keeps : KeepsEnded current.journal calls) :
      ((∀ effect ∈ effects, effect.StandsIn current.snapshot journal) ↔
        EvaluationLands state observation calls) ∧
      (EvaluationLands state observation calls →
        ((∀ effect ∈ effects, effect.RecordedIn journal) ↔ KeepsEnded current.journal calls)) ∧
      Spares current calls := by
    rw [silent, EvaluationLands, empty]
    exact ⟨by simp, by simpa using keeps, fun _ => keeps⟩
  unfold runRuntimeTick
  by_cases valid : observation.timeValid = true
  swap
  · rw [if_pos (by simpa using valid)]
    exact nothing rfl (behindLoads_nil _) (by simp [KeepsEnded, Stays])
  rw [if_neg (by simpa using valid), if_neg (by simp [unlatched])]
  by_cases pending : isBootPending state observation = true
  · rw [if_pos pending]
    refine (@ensures_settleLoaded _ current.snapshot current [] observation true {}
      (fun _ => bootId_of_pending pending) fun _ => sameRecord_refl current).bind ?_
    rintro (result | result) log middle
      ⟨reported, ⟨load, own, loads, rfl, quiet⟩, calls, whole, keeps⟩
    · refine nothing reported ?_ (whole ▸ keeps)
      rw [if_pos pending, List.nil_append, behindLoads_load loads,
        ← List.append_nil own, behindLoads_skip quiet, behindLoads_nil]
    obtain ⟨same, tracked, pushed, effects, holds, settled⟩ := reported
    refine (ensures_evaluationTick (fun _ => same) tracked).bind ?_
    rintro final log' after ⟨load', own', more, loads', still, rfl, ticked⟩
    have behind : behindLoads (if isBootPending state observation then 2 else 1)
        ([] ++ load :: own ++ load' :: own') = own' := by
      rw [if_pos pending, List.nil_append, List.cons_append, behindLoads_load loads,
        behindLoads_skip quiet, behindLoads_load loads', behindLoads]
    have stands : ∀ effect ∈ pushed, effect.StandsIn current.snapshot after.journal :=
      fun effect mem => ticked.keeps effect (holds effect mem).1 ((holds effect mem).2 rfl)
    show ((∀ effect ∈ final.effects, _) ↔ _) ∧ (_ → ((∀ effect ∈ final.effects, _) ↔ _)) ∧ _
    rw [Spares, EvaluationLands, behind, ticked.effects, effects, List.nil_append,
      List.forall_mem_append, List.forall_mem_append, settled, and_iff_right stands,
      keepsEnded_append, whole, List.nil_append, and_iff_right keeps, keepsEnded_load still]
    exact ⟨ticked.stands.symm, ticked.records, ticked.spares⟩
  · rw [if_neg pending]
    refine (@ensures_evaluationTick _ current observation current.snapshot current.journal [] {}
      (fun _ => sameRecord_refl current) (tracked_refl unrecorded)).bind ?_
    rintro final log after ⟨load, own, pushed, loads, still, rfl, ticked⟩
    have behind : behindLoads (if isBootPending state observation then 2 else 1)
        ([] ++ load :: own) = own := by
      rw [if_neg pending, List.nil_append, behindLoads_load loads, behindLoads]
    have vacuous : Kept current.journal current.journal after.journal := by
      intro a held idle
      rw [show current.journal.active = some a from held] at idle
      cases idle
    have records := ticked.records
    rw [and_iff_right vacuous] at records
    show ((∀ effect ∈ final.effects, _) ↔ _) ∧ (_ → ((∀ effect ∈ final.effects, _) ↔ _)) ∧ _
    rw [Spares, EvaluationLands, behind, ticked.effects, List.nil_append, List.nil_append,
      keepsEnded_load still]
    exact ⟨ticked.stands.symm, records, ticked.spares⟩

end

/-- A tick without a writer beside it, under any faults: every effect it reports as
ringing, snoozed, missed or timed out is in the durable journal when the tick returns,
exactly if it owes a reconciliation or every commit of its evaluation becomes durable, and
no commit evicts the record of the occurrence that was active when it began, which takes a
schedule of 32 alarms. -/
theorem reported_effects_durable (faults : ℕ → StorageFaults) (state : RuntimeCoordinatorState)
    (observation : RuntimeTickObservation) (slots : Slots) :
    let tick := runRuntimeTick state observation
    let run := exec (faultyStore faults) tick (0, slots)
    let calls := (events (faultyStore faults) tick (0, slots)).map (Event.mapState durable)
    (∀ effect ∈ run.1.1.effects,
      effect.HoldsIn (scanSlots slots).snapshot (Slots.journal run.2.2)) ↔
      (state.reconciliationPending = true ∨ EvaluationLands state observation calls) ∧
        (kMaximumStoredAlarms ≤ (scanSlots slots).snapshot.alarms.length →
          KeepsEnded (Slots.journal slots) calls) := by
  intro tick run calls
  have both : (∀ effect ∈ run.1.1.effects,
        effect.HoldsIn (scanSlots slots).snapshot (Slots.journal run.2.2)) ↔
      (∀ effect ∈ run.1.1.effects,
        effect.StandsIn (scanSlots slots).snapshot (Slots.journal run.2.2)) ∧
        ∀ effect ∈ run.1.1.effects, effect.RecordedIn (Slots.journal run.2.2) :=
    ⟨fun holds => ⟨fun effect mem => (holds effect mem).stands,
      fun effect mem => (holds effect mem).recorded⟩,
      fun parts effect mem => ⟨parts.1 effect mem, parts.2 effect mem⟩⟩
  have full (spares : Spares (durable (0, slots)) calls) :
      (kMaximumStoredAlarms ≤ (scanSlots slots).snapshot.alarms.length →
        KeepsEnded (Slots.journal slots) calls) ↔ KeepsEnded (Slots.journal slots) calls := by
    refine ⟨fun keeps => ?_, fun keeps _ => keeps⟩
    rcases Nat.lt_or_ge (scanSlots slots).snapshot.alarms.length kMaximumStoredAlarms with few | many
    · exact spares few
    · exact keeps many
  rw [both]
  cases latched : state.reconciliationPending with
  | false =>
      have unrecorded : ∀ a ∈ (durable (0, slots)).journal.active,
          ¬ Recorded (durable (0, slots)).journal a.occurrenceId := by
        intro a held
        by_cases loaded : (scanSlots slots).status = .loaded
        · rw [durable, Register.journal_of_loaded loaded] at held ⊢
          exact (validRecord_scanSlots loaded).journal.activeNotTerminal a held
        · rw [durable, Register.journal, if_neg loaded] at held
          cases held
      obtain ⟨stands, recorded, spares⟩ := exec_ensures faults (0, slots) (fun _ => trivial)
        (@ensures_unlatchedTick (fun _ => True) (durable (0, slots)) state observation latched
          unrecorded)
      rw [show (false = true ∨ EvaluationLands state observation calls) ↔
        EvaluationLands state observation calls by simp, full spares]
      constructor
      · rintro ⟨standing, kept⟩
        exact ⟨stands.mp standing, (recorded (stands.mp standing)).mp kept⟩
      · rintro ⟨lands, kept⟩
        exact ⟨stands.mpr lands, (recorded lands).mpr kept⟩
  | true =>
      have holds : Ensures (Answers fun _ => True) (fun done log after =>
          (∀ effect ∈ done.1.effects, effect.StandsIn (scanSlots slots).snapshot after.journal) ∧
            ((∀ effect ∈ done.1.effects, effect.RecordedIn after.journal) ↔
              KeepsEnded (Slots.journal slots) log) ∧
            Spares (durable (0, slots)) log) tick [] (durable (0, slots)) := by
        show Ensures _ _ (runRuntimeTick state observation) _ _
        unfold runRuntimeTick
        split
        · have keeps (began : PersistentAlarmState) : KeepsEnded began [] := by
            simp [KeepsEnded, Stays]
          exact ⟨by simp, ⟨fun _ => keeps _, by simp⟩, fun _ => keeps _⟩
        · exact ensures_latchedTick
      obtain ⟨stands, recorded, spares⟩ := exec_ensures faults (0, slots) (fun _ => trivial) holds
      rw [full spares]
      exact ⟨fun whole => ⟨.inl rfl, recorded.mp whole.2⟩,
        fun whole => ⟨stands, recorded.mpr whole.2⟩⟩

/-- The write of an admission is lost: the tick reports a ringing occurrence that the
journal does not hold. -/
theorem reported_although_lost :
    let faults : ℕ → StorageFaults := fun n => if n = 1 then { write := .dropped } else {}
    let run := exec (faultyStore faults) (runRuntimeTick {} ⟨true, 1000, 5, []⟩)
      (0, oneAlarmStore)
    ∃ effect ∈ run.1.1.effects, effect.status = .ringing ∧
      ¬ effect.HoldsIn (scanSlots oneAlarmStore).snapshot (Slots.journal run.2.2) := by
  intro faults run
  obtain ⟨done, final⟩ := exec_register faults (runRuntimeTick {} ⟨true, 1000, 5, []⟩) oneAlarmStore
  rw [scanSlots_oneAlarmStore] at done final
  have reports : run.1.1.effects.map (fun effect => (effect.status, effect.occurrenceId)) =
      [(.ringing, [0x77, 0x3a, 0x31, 0x3a, 0x31, 0x30, 0x30, 0x30])] := by
    rw [done]
    decide +kernel
  have idle : (Slots.journal run.2.2).active = none := by
    rw [Slots.journal, final]
    decide +kernel
  obtain ⟨effect, whole, rings⟩ := List.map_eq_singleton_iff.mp reports
  have status : effect.status = .ringing := congrArg Prod.fst rings
  refine ⟨effect, by rw [whole]; exact List.mem_singleton_self _, status, fun holds => ?_⟩
  exact Holds.busy holds.stands (.inl status) idle

end DawnDock
