import DawnDock.Clients.Reconciliation

/-!
A second reconciliation right behind the first.

A batch of misses pushes the oldest records out of a full terminal list. The due
alarms whose record goes, and that no watermark covers, are what a second call finds
crossed (`Batch.crossed_missed`), and it reconciles them where the watermark table and
the generations have room.

* `reconciliation_classifies`: one call under any faults, and exactly when a second one
  writes nothing and exposes no edge.
* `evicted_record_is_reconciled`: a second call that writes.
-/

namespace DawnDock

open AtomicProgram

/-! ### The entries of the watermark table -/

/-- The entries of the watermark table once it has taken the alarms. -/
def tableLoad (state : PersistentAlarmState) (alarms : List StoredAlarmDefinition) : ℕ :=
  state.terminalHighWatermarks.length +
    (alarms.filter fun alarm =>
      !state.terminalHighWatermarks.any (·.alarmId == alarm.id)).length

section

variable {state final : PersistentAlarmState} {alarm newest : StoredAlarmDefinition}
  {rest older more : List StoredAlarmDefinition} {newestRings : Bool}
  {wallUtcSeconds monotonicSeconds : Int64}

theorem tableLoad_nil : tableLoad state [] = state.terminalHighWatermarks.length := rfl

theorem tableLoad_cons : tableLoad state (alarm :: rest) = tableLoad state rest +
    if alarm.id ∈ state.terminalHighWatermarks.map (·.alarmId) then 0 else 1 := by
  by_cases known : alarm.id ∈ state.terminalHighWatermarks.map (·.alarmId)
  · have any : state.terminalHighWatermarks.any (·.alarmId == alarm.id) = true := by
      simpa using known
    simp [tableLoad, any, known]
  · have any : state.terminalHighWatermarks.any (·.alarmId == alarm.id) = false := by
      simpa using known
    simp [tableLoad, any, known, Nat.add_assoc]

theorem tableLoad_append : tableLoad state older ≤ tableLoad state (older ++ more) := by
  simp [tableLoad]

/-- A miss takes the entry that was counted for its alarm. -/
theorem tableLoad_miss (notAgain : alarm.id ∉ rest.map (·.id)) (reason : TerminalReason) :
    tableLoad (missOccurrence state alarm reason) rest = tableLoad state (alarm :: rest) := by
  have watermarks : (missOccurrence state alarm reason).terminalHighWatermarks =
      raiseHighWatermark alarm.id alarm.scheduledUtcSeconds state.terminalHighWatermarks :=
    appendTerminal_watermarks _ _
  have ids := raiseHighWatermark_ids alarm.id alarm.scheduledUtcSeconds
    state.terminalHighWatermarks
  have count := congrArg List.length ids
  have others : ∀ other ∈ rest,
      (missOccurrence state alarm reason).terminalHighWatermarks.any (·.alarmId == other.id) =
        state.terminalHighWatermarks.any (·.alarmId == other.id) := by
    intro other mem
    have differs : (alarm.id == other.id) = false := beq_eq_false_iff_ne.mpr fun same =>
      notAgain (same ▸ List.mem_map_of_mem mem)
    rw [watermarks, any_raiseHighWatermark, differs, Bool.false_or]
  rw [tableLoad_cons, tableLoad, tableLoad, List.filter_congr fun other mem => by
    rw [others other mem], watermarks]
  rw [List.length_map] at count
  split at count <;> rename_i known
  · rw [if_pos known, count, List.length_map, Nat.add_zero]
  · rw [if_neg known, count, List.length_append, List.length_map, List.length_singleton]
    omega

theorem canTrackTerminal_iff_load
    (bounded : state.terminalHighWatermarks.length ≤ kTerminalHighWatermarkCapacity) :
    canTrackTerminal state alarm.id = true ↔
      tableLoad state [alarm] ≤ kTerminalHighWatermarkCapacity := by
  rw [canTrackTerminal_iff, tableLoad_cons, tableLoad_nil]
  split <;> rename_i known
  · simpa [known] using bounded
  · simp only [known, false_or]
    omega

theorem journalMissed_isSome :
    (journalMissed state alarm).isSome = canTrackTerminal state alarm.id := by
  unfold journalMissed journalTerminal
  split <;> simp_all

/-- The misses are journaled exactly when the table takes their alarms. -/
theorem missAll_isSome
    (bounded : state.terminalHighWatermarks.length ≤ kTerminalHighWatermarkCapacity)
    (distinct : (older.map (·.id)).Nodup) :
    (older.foldlM journalMissed state).isSome = true ↔
      tableLoad state older ≤ kTerminalHighWatermarkCapacity := by
  induction older generalizing state with
  | nil => simpa [tableLoad_nil] using bounded
  | cons alarm rest ih =>
      obtain ⟨notAgain, distinct⟩ := List.nodup_cons.mp distinct
      rw [List.foldlM_cons]
      cases missed : journalMissed state alarm with
      | none =>
          have full : canTrackTerminal state alarm.id = false := by
            rw [← journalMissed_isSome, missed, Option.isSome_none]
          rw [← Bool.not_eq_true, canTrackTerminal_iff_load bounded] at full
          have counted := @tableLoad_append state [alarm] rest
          rw [List.singleton_append] at counted
          simp only [Option.bind_eq_bind, Option.bind_none, Option.isSome_none,
            Bool.false_eq_true, false_iff]
          omega
      | some middle =>
          obtain ⟨room, rfl⟩ := journalMissed_eq_some missed
          rw [canTrackTerminal_iff_load bounded,
            ← @tableLoad_miss state alarm [] (by simp) .invalidTime, tableLoad_nil] at room
          rw [← tableLoad_miss notAgain .invalidTime]
          exact ih room distinct

theorem missAll_load (distinct : ((older ++ more).map (·.id)).Nodup)
    (missed : older.foldlM journalMissed state = some final) :
    tableLoad final more = tableLoad state (older ++ more) := by
  induction older generalizing state with
  | nil =>
      cases missed
      rfl
  | cons alarm rest ih =>
      rw [List.cons_append] at distinct ⊢
      obtain ⟨notAgain, distinct⟩ := List.nodup_cons.mp distinct
      obtain ⟨middle, first, later⟩ := Option.bind_eq_some_iff.mp missed
      obtain ⟨-, rfl⟩ := journalMissed_eq_some first
      rw [ih distinct later, tableLoad_miss notAgain]

theorem beginRecoveredRing_isSome (idle : state.active = none) :
    (beginRecoveredRing state newest.id (makeOccurrenceId newest.definition)
      newest.scheduledUtcSeconds wallUtcSeconds monotonicSeconds).isSome =
        canTrackTerminal state newest.id := by
  unfold beginRecoveredRing
  rw [idle, Option.isSome_none, if_neg Bool.false_ne_true]
  split <;> simp_all

/-- A batch is accepted exactly when the table takes its alarms, the ringing one too. -/
theorem reconcileJournal_isSome (idle : state.active = none)
    (bounded : state.terminalHighWatermarks.length ≤ kTerminalHighWatermarkCapacity)
    (distinct : ((older ++ [newest]).map (·.id)).Nodup) :
    (reconcileJournal state older newest newestRings wallUtcSeconds monotonicSeconds).isSome =
        true ↔
      tableLoad state (older ++ [newest]) ≤ kTerminalHighWatermarkCapacity := by
  rw [← missAll_isSome bounded distinct, List.foldlM_append]
  unfold reconcileJournal
  cases missed : older.foldlM journalMissed state with
  | none => simp
  | some middle =>
      have still : middle.active = none := (foldlM_journalMissed_active missed).trans idle
      have misses := @journalMissed_isSome middle newest
      have rings := @beginRecoveredRing_isSome middle newest wallUtcSeconds monotonicSeconds still
      simp only [Option.bind_eq_bind, Option.bind_some, List.foldlM_cons, List.foldlM_nil,
        Option.pure_def, Option.bind_fun_some, misses]
      cases newestRings with
      | false => simp [misses]
      | true =>
          cases room : canTrackTerminal middle newest.id with
          | false => simp [journalCanAccept, room]
          | true => simpa [journalCanAccept, room] using rings.trans room

end

/-! ### The records a batch pushes out -/

/-- The oldest records, which the misses of the crossed push out of the list. -/
def pushedOut (snapshot : ScheduleSnapshot) (wallUtcSeconds : Int64) : List TerminalOccurrence :=
  snapshot.occurrenceState.terminal.take (snapshot.occurrenceState.terminal.length +
    (crossedCandidates snapshot wallUtcSeconds).length - kRecentTerminalRetention)

/-- A due alarm whose record is pushed out and that no watermark covers. -/
def forgottenNow (snapshot : ScheduleSnapshot) (wallUtcSeconds : Int64)
    (alarm : StoredAlarmDefinition) : Bool :=
  alarm.enabled && alarm.scheduledUtcSeconds ≤ wallUtcSeconds &&
    (pushedOut snapshot wallUtcSeconds).any (·.occurrenceId == makeOccurrenceId alarm.definition) &&
    !atOrBelowWatermark snapshot.occurrenceState alarm.id alarm.scheduledUtcSeconds

/-- These alarms, by scheduled instant, then alarm id. -/
def forgottenCandidates (snapshot : ScheduleSnapshot) (wallUtcSeconds : Int64) :
    List StoredAlarmDefinition :=
  sortAlarms (snapshot.alarms.filter (forgottenNow snapshot wallUtcSeconds))

theorem mem_retain_ids {old new : List TerminalOccurrence} {occurrenceId : Text}
    (distinct : (old.map (·.occurrenceId)).Nodup)
    (notNew : occurrenceId ∉ new.map (·.occurrenceId)) :
    occurrenceId ∈ (retain (old ++ new)).map (·.occurrenceId) ↔
      occurrenceId ∈ old.map (·.occurrenceId) ∧
        occurrenceId ∉ (old.take (old.length + new.length - kRecentTerminalRetention)).map
          (·.occurrenceId) := by
  rw [retain, List.length_append]
  generalize old.length + new.length - kRecentTerminalRetention = count
  have parts : old.map (·.occurrenceId) =
      (old.take count).map (·.occurrenceId) ++ (old.drop count).map (·.occurrenceId) := by
    rw [← List.map_append, List.take_append_drop]
  rw [List.drop_append, List.map_append, List.mem_append]
  constructor
  · rintro (kept | isNew)
    · rw [parts] at distinct ⊢
      exact ⟨List.mem_append_right _ kept, fun gone =>
        (List.nodup_append.mp distinct).2.2 _ gone _ kept rfl⟩
    · exact absurd (List.map_subset _ (List.drop_subset _ _) isNew) notNew
  · rintro ⟨listed, stays⟩
    rw [parts] at listed
    exact .inl ((List.mem_append.mp listed).resolve_left stays)

section

variable {current : Register} {wallUtcSeconds monotonicSeconds : Int64}
  {newest alarm : StoredAlarmDefinition} {lateness : Int64} {journal : PersistentAlarmState}

theorem forgottenNow_iff {snapshot : ScheduleSnapshot} :
    forgottenNow snapshot wallUtcSeconds alarm = true ↔
      alarm.enabled = true ∧ alarm.scheduledUtcSeconds ≤ wallUtcSeconds ∧
        makeOccurrenceId alarm.definition ∈
          (pushedOut snapshot wallUtcSeconds).map (·.occurrenceId) ∧
        atOrBelowWatermark snapshot.occurrenceState alarm.id alarm.scheduledUtcSeconds =
          false := by
  simp [forgottenNow, and_assoc]

/-- Behind a batch of misses an alarm is crossed exactly when its record went. -/
theorem Batch.crossedNow_iff_forgotten (record : ValidRecord current)
    (batch : Batch current.snapshot wallUtcSeconds monotonicSeconds newest lateness journal)
    (late : kLateGraceSeconds < lateness) (listed : alarm ∈ current.snapshot.alarms) :
    crossedNow journal wallUtcSeconds alarm = true ↔
      forgottenNow current.snapshot wallUtcSeconds alarm = true := by
  have terminal := batch.terminal record late
  have length : ((crossedCandidates current.snapshot wallUtcSeconds).map
      invalidTimeRecord).length = (crossedCandidates current.snapshot wallUtcSeconds).length :=
    List.length_map _
  rw [crossedNow_iff, forgottenNow_iff, Unjournaled, ← Bool.not_eq_true (isTerminal _ _),
    isTerminal_iff, terminal]
  by_cases crossed : crossedNow current.snapshot.occurrenceState wallUtcSeconds alarm = true
  · -- Its record is new, and it had none before.
    have candidate := mem_crossedCandidates.mpr ⟨listed, crossed⟩
    have recorded := @mem_retain current.snapshot.occurrenceState.terminal _
      (invalidTimeRecord alarm) (length ▸ length_crossedCandidates record.schedule)
      (List.mem_map_of_mem candidate)
    constructor
    · rintro ⟨-, -, unrecorded, -⟩
      exact absurd (List.mem_map_of_mem recorded) unrecorded
    · rintro ⟨-, -, gone, -⟩
      exact absurd (List.map_subset _ (List.take_subset _ _) gone) (fresh_of_crossed candidate)
  · have notNew : makeOccurrenceId alarm.definition ∉
        ((crossedCandidates current.snapshot wallUtcSeconds).map invalidTimeRecord).map
          (·.occurrenceId) := by
      rw [List.map_map]
      intro mem
      obtain ⟨other, candidate, same⟩ := List.mem_map.mp mem
      obtain ⟨known, isCrossed⟩ := mem_crossedCandidates.mp candidate
      obtain rfl := List.inj_on_of_nodup_map record.schedule.ids known listed
        (makeOccurrenceId_inj same).1
      exact crossed isCrossed
    have kept : atOrBelowWatermark journal alarm.id alarm.scheduledUtcSeconds =
        atOrBelowWatermark current.snapshot.occurrenceState alarm.id
          alarm.scheduledUtcSeconds := by
      have same := (batch.classified record).watermarks alarm.id
        fun other known isCrossed same => by
          obtain rfl := List.inj_on_of_nodup_map record.schedule.ids listed known same
          exact crossed isCrossed
      rw [atOrBelowWatermark, same]
      rfl
    rw [kept, mem_retain_ids record.journal.terminalIds notNew, length]
    constructor
    · rintro ⟨enabled, due, unrecorded, uncovered⟩
      refine ⟨enabled, due, ?_, uncovered⟩
      by_contra stays
      refine crossed (crossedNow_iff.mpr ⟨enabled, due, ?_, uncovered⟩)
      rw [← Bool.not_eq_true, isTerminal_iff]
      exact fun recorded => unrecorded ⟨recorded, stays⟩
    · rintro ⟨enabled, due, gone, uncovered⟩
      exact ⟨enabled, due, fun kept => kept.2 gone, uncovered⟩

theorem Batch.crossed_missed (record : ValidRecord current)
    (batch : Batch current.snapshot wallUtcSeconds monotonicSeconds newest lateness journal)
    (late : kLateGraceSeconds < lateness) :
    crossedCandidates (current.withJournal journal).snapshot wallUtcSeconds =
      forgottenCandidates current.snapshot wallUtcSeconds := by
  have same : current.snapshot.alarms.filter (crossedNow journal wallUtcSeconds) =
      current.snapshot.alarms.filter (forgottenNow current.snapshot wallUtcSeconds) :=
    List.filter_congr fun alarm listed =>
      Bool.eq_iff_iff.mpr (batch.crossedNow_iff_forgotten record late listed)
  exact congrArg sortAlarms same

/-- The crossed and the forgotten are different alarms. -/
theorem nodup_crossed_forgotten (record : ValidRecord current) :
    ((crossedCandidates current.snapshot wallUtcSeconds ++
      forgottenCandidates current.snapshot wallUtcSeconds).map (·.id)).Nodup := by
  have ids := record.schedule.ids
  have sorted (keep : StoredAlarmDefinition → Bool) :
      ((sortAlarms (current.snapshot.alarms.filter keep)).map (·.id)).Nodup :=
    ((sortAlarms_perm _).map _).nodup_iff.mpr (ids.sublist (List.filter_sublist.map _))
  rw [List.map_append]
  refine List.nodup_append.mpr ⟨sorted _, sorted _, ?_⟩
  intro _ isCrossed _ isForgotten same
  obtain ⟨alarm, candidate, rfl⟩ := List.mem_map.mp isCrossed
  obtain ⟨other, gone, rfl⟩ := List.mem_map.mp isForgotten
  obtain ⟨known, forgotten⟩ := List.mem_filter.mp (mem_sortAlarms.mp gone)
  obtain rfl := List.inj_on_of_nodup_map ids (mem_crossedCandidates.mp candidate).1 known same
  exact fresh_of_crossed candidate
    (List.map_subset _ (List.take_subset _ _) (forgottenNow_iff.mp forgotten).2.2.1)

end

/-! ### The second call -/

/-- A second reconciliation finds an alarm the first one forgot, and can write. -/
structure Resurfaces (before : Register) (wallUtcSeconds : Int64) : Prop where
  /-- The newest crossed occurrence is too late to ring, so nothing is active behind it. -/
  late : ∃ newest ∈ (crossedCandidates before.snapshot wallUtcSeconds).getLast?, ∃ lateness,
    checkedElapsed wallUtcSeconds newest.scheduledUtcSeconds = some lateness ∧
      kLateGraceSeconds < lateness
  forgotten : ∃ newest ∈ (forgottenCandidates before.snapshot wallUtcSeconds).getLast?,
    (checkedElapsed wallUtcSeconds newest.scheduledUtcSeconds).isSome = true
  room : tableLoad before.snapshot.occurrenceState
      (crossedCandidates before.snapshot wallUtcSeconds ++
        forgottenCandidates before.snapshot wallUtcSeconds) ≤ kTerminalHighWatermarkCapacity
  generation : before.generation + 1 ≠ uint64Max

/-- A batch that can be written. -/
def Reconcilable (current : Register) (wallUtcSeconds monotonicSeconds : Int64) : Prop :=
  current.generation ≠ uint64Max ∧ ∃ newest lateness journal,
    Batch current.snapshot wallUtcSeconds monotonicSeconds newest lateness journal

section

variable {current : Register} {wallUtcSeconds monotonicSeconds : Int64}
  {newest : StoredAlarmDefinition} {lateness : Int64} {journal : PersistentAlarmState}
  {allowed : StorageFaults → Prop}

/-- A ringing occurrence keeps a second call from everything else. -/
theorem Batch.not_again
    (batch : Batch current.snapshot wallUtcSeconds monotonicSeconds newest lateness journal)
    (grace : lateness ≤ kLateGraceSeconds) :
    ¬ Reconcilable (current.withJournal journal) wallUtcSeconds monotonicSeconds := by
  rintro ⟨-, _, _, _, again⟩
  obtain ⟨middle, -, -, final⟩ := reconcileJournal_eq_some batch.accepted
  rw [if_pos (decide_eq_true grace)] at final
  have idle : journal.active = none := again.idle
  rw [final] at idle
  cases idle

theorem Batch.again_iff (record : ValidRecord current)
    (batch : Batch current.snapshot wallUtcSeconds monotonicSeconds newest lateness journal) :
    Reconcilable (current.withJournal journal) wallUtcSeconds monotonicSeconds ↔
      Resurfaces current wallUtcSeconds := by
  rcases Int64.le_or_lt lateness kLateGraceSeconds with grace | late
  · refine iff_of_false (batch.not_again grace) fun resurfaces => ?_
    obtain ⟨other, last, _, elapsed, late⟩ := resurfaces.late
    obtain rfl := Option.some.inj (last.symm.trans batch.last)
    obtain rfl := Option.some.inj (elapsed.symm.trans batch.elapsed)
    exact absurd grace (Int64.not_le.mpr late)
  have idle : journal.active = none :=
    (foldlM_journalMissed_active (batch.missed late)).trans batch.idle
  have crossed := batch.crossed_missed record late
  have distinct := @nodup_crossed_forgotten current wallUtcSeconds record
  have load := missAll_load distinct (batch.missed late)
  have bounded := (batch.valid record).watermarkCount
  have accepts (last : StoredAlarmDefinition) (rings : Bool)
      (isLast : (forgottenCandidates current.snapshot wallUtcSeconds).getLast? = some last) :
      (reconcileJournal journal (forgottenCandidates current.snapshot wallUtcSeconds).dropLast
          last rings wallUtcSeconds monotonicSeconds).isSome = true ↔
        tableLoad journal (forgottenCandidates current.snapshot wallUtcSeconds) ≤
          kTerminalHighWatermarkCapacity := by
    have whole := List.dropLast_append_getLast? last isLast
    rw [List.map_append] at distinct
    have ids := (List.nodup_append.mp distinct).2.1
    rw [← whole] at ids
    rw [reconcileJournal_isSome idle bounded ids, whole]
  constructor
  · rintro ⟨generation, last, lateness', journal', again⟩
    have isLast := again.last
    have accepted := again.accepted
    rw [crossed] at isLast accepted
    refine ⟨⟨newest, batch.last, lateness, batch.elapsed, late⟩,
      ⟨last, isLast, Option.isSome_iff_exists.mpr ⟨_, again.elapsed⟩⟩, ?_, generation⟩
    rw [← load, ← accepts last _ isLast]
    exact Option.isSome_iff_exists.mpr ⟨_, accepted⟩
  · rintro ⟨-, ⟨last, isLast, representable⟩, room, generation⟩
    obtain ⟨lateness', elapsed⟩ := Option.isSome_iff_exists.mp representable
    rw [← load, ← accepts last (lateness' ≤ kLateGraceSeconds) isLast] at room
    obtain ⟨journal', accepted⟩ := Option.isSome_iff_exists.mp room
    refine ⟨generation, last, lateness', journal', idle, ?_, elapsed, ?_⟩
    · rwa [crossed]
    · rwa [crossed]

/-- A call that cannot write exposes no edge, and a commit it still asks for finds the
generations run out. -/
theorem ensures_quiet (spent : ¬ Reconcilable current wallUtcSeconds monotonicSeconds) :
    Ensures (Answers allowed) (fun recovery log _ => recovery.edges = [] ∧
        ∀ e ∈ log, e.call = .load ∨ e.before.generation = uint64Max ∧
          ∃ state revision generation, e.call = .saveOccurrenceState state revision generation)
      (reconcileAfterTimeValid wallUtcSeconds monotonicSeconds true) [] current := by
  have loads {seen : LoadResult} {e : Event StoreReply Register}
      (mem : e ∈ [(⟨current, .load, seen, current⟩ : Event StoreReply Register)]) :
      e.call = .load := by
    rw [List.mem_singleton.mp mem]
  unfold reconcileAfterTimeValid
  rw [if_neg (by simp)]
  refine (ensures_load allowed [] current).bind ?_
  rintro loaded log after ⟨rfl, rfl, returns⟩
  split
  · exact ⟨rfl, fun e mem => .inl (loads mem)⟩
  rename_i isLoaded
  obtain ⟨rfl, -⟩ := returns (not_not.mp isLoaded)
  dsimp only
  split
  · exact ⟨rfl, fun e mem => .inl (loads mem)⟩
  rename_i idle
  split
  · exact ⟨rfl, fun e mem => .inl (loads mem)⟩
  rename_i newest last
  split
  · exact ⟨rfl, fun e mem => .inl (loads mem)⟩
  rename_i lateness elapsed
  split
  · exact ⟨rfl, fun e mem => .inl (loads mem)⟩
  rename_i journal accepted
  have batch : Batch loaded.snapshot wallUtcSeconds monotonicSeconds newest lateness journal :=
    ⟨by simpa using idle, last, elapsed, accepted⟩
  have exhausted : loaded.generation = uint64Max := by
    by_contra room
    exact spent ⟨room, newest, lateness, journal, batch⟩
  refine ensures_saveOccurrenceState.bind ?_
  rintro committed log' after ⟨rfl, outcome⟩
  have failed : committed.status.committed = false := by
    cases outcome with
    | refused failed | unconfirmed failed => exact failed
    | unchanged _ _ _ _ held => exact absurd held.symm batch.changes
    | stored _ _ fits => exact absurd exhausted fits.fresh
  simp only [failed, Bool.not_false, if_true]
  refine ⟨rfl, fun e mem => ?_⟩
  rcases List.mem_append.mp mem with load | save
  · exact .inl (loads load)
  · rw [List.mem_singleton.mp save]
    exact .inr ⟨exhausted, _, _, _, rfl⟩

end

/-- A commit that finds the generations run out writes nothing. -/
theorem saveOccurrenceState_exhausted (faults : StorageFaults) {slots : Slots}
    (exhausted : (scanSlots slots).generation = uint64Max) (state : PersistentAlarmState)
    (revision generation : UInt64) :
    (saveOccurrenceState slots faults state revision generation).2 = slots := by
  unfold saveOccurrenceState runWriter loadUnlocked
  split
  · rfl
  dsimp only
  split
  · rfl
  cases planned : saveOccurrenceStatePlan (scanSlots slots) state revision generation with
  | answer result => rfl
  | commit snapshot destination =>
      have fresh := (saveOccurrenceStatePlan_commit planned).1.fresh
      rw [exhausted] at fresh
      exact absurd rfl fresh

/-- A program that only loads, or commits where the generations have run out, leaves the
store alone. -/
theorem exec_quiet {α : Type} (faults : ℕ → StorageFaults) (p : Program StoreReply α)
    (s : ℕ × Slots)
    (quiet : ∀ e ∈ events (faultyStore faults) p s, e.call = .load ∨
      (durable e.before).generation = uint64Max ∧
        ∃ state revision generation, e.call = .saveOccurrenceState state revision generation) :
    (exec (faultyStore faults) p s).2.2 = s.2 := by
  have linked := events_linked (faultyStore faults) p s
  refine linked.invariant (P := fun t => t.2 = s.2) rfl ?_
  intro e mem start
  have kind := quiet e mem
  have step := congrArg Event.after (event_step (faultyStore faults) p s e mem)
  obtain ⟨before, call, reply, after⟩ := e
  rcases kind with rfl | ⟨exhausted, state, revision, generation, rfl⟩
  · rw [step]
    exact start
  · have kept := saveOccurrenceState_exhausted (faults before.1) exhausted state revision generation
    have step : after.2 = (saveOccurrenceState before.2 (faults before.1) state revision
      generation).2 := congrArg Prod.snd step
    rw [step, kept]
    exact start

/-- A batch that can be written changes the record, over healthy storage. -/
theorem HealthyReconciliation.writes {current : Register}
    {wallUtcSeconds monotonicSeconds : Int64} {final : InvalidTimeRecoveryResult × Register}
    (reconciles : HealthyReconciliation current wallUtcSeconds monotonicSeconds final)
    (can : Reconcilable current wallUtcSeconds monotonicSeconds) : final.2 ≠ current := by
  obtain ⟨room, newest, lateness, journal, batch⟩ := can
  have same {other : StoredAlarmDefinition}
      (last : (crossedCandidates current.snapshot wallUtcSeconds).getLast? = some other) :
      other = newest := Option.some.inj (last.symm.trans batch.last)
  cases reconciles with
  | deferred _ busy => exact absurd batch.idle busy
  | nothing _ _ empty =>
      have last := batch.last
      rw [empty] at last
      cases last
  | unknown _ _ last elapsed =>
      rw [same last, batch.elapsed] at elapsed
      cases elapsed
  | full _ _ last elapsed overflow =>
      obtain rfl := same last
      obtain rfl := Option.some.inj (elapsed.symm.trans batch.elapsed)
      rw [batch.accepted] at overflow
      cases overflow
  | refused _ _ exhausted => exact absurd exhausted room
  | reconciled _ other =>
      intro kept
      exact other.changes (congrArg (fun record => record.snapshot.occurrenceState) kept)

/-- A call over healthy storage writes where it can. -/
theorem exec_writes {slots : Slots} {wallUtcSeconds monotonicSeconds : Int64}
    (loaded : (scanSlots slots).status = .loaded)
    (can : Reconcilable (scanSlots slots) wallUtcSeconds monotonicSeconds) :
    (exec (faultyStore fun _ => {}) (reconcileAfterTimeValid wallUtcSeconds monotonicSeconds true)
      (0, slots)).2.2 ≠ slots := by
  intro kept
  have sim : Simulates (faultyStore fun _ => {}) (performStore {}) Prod.snd := fun _ _ => rfl
  have healthy := congrArg Prod.snd (sim.exec
    (reconcileAfterTimeValid wallUtcSeconds monotonicSeconds true) (0, slots))
  have same : (exec (performStore {})
      (reconcileAfterTimeValid wallUtcSeconds monotonicSeconds true) slots).2 = slots :=
    healthy.trans kept
  obtain ⟨-, final⟩ := exec_healthy
    (reconcileAfterTimeValid wallUtcSeconds monotonicSeconds true) slots
  rw [same] at final
  exact (exec_reconcileAfterTimeValid (validRecord_scanSlots loaded)).writes can final.symm

/-- Without a writer beside it, under any faults: a reconciliation makes one batch durable
and says so, or says otherwise and leaves the record, or the batch although its write was
reported as failed. Behind a reported one, a second call writes nothing and exposes no edge
under any faults, exactly when no alarm resurfaces. -/
theorem reconciliation_classifies (faults : ℕ → StorageFaults) {slots : Slots}
    (wallUtcSeconds monotonicSeconds : Int64) (timeValid : Bool)
    (loaded : (scanSlots slots).status = .loaded) :
    let reconcile := reconcileAfterTimeValid wallUtcSeconds monotonicSeconds timeValid
    let run := exec (faultyStore faults) reconcile (0, slots)
    let calls := (events (faultyStore faults) reconcile (0, slots)).map (Event.mapState durable)
    ReconciliationEnds (scanSlots slots) wallUtcSeconds monotonicSeconds run.1 calls
        (scanSlots run.2.2) ∧
      (run.1.status = .reconciled →
        ((∀ (later : ℕ → StorageFaults) (turn : ℕ),
            let again := exec (faultyStore later) reconcile (turn, run.2.2)
            again.2.2 = run.2.2 ∧ again.1.edges = []) ↔
          ¬ Resurfaces (scanSlots slots) wallUtcSeconds)) := by
  intro reconcile run calls
  have record := validRecord_scanSlots loaded
  obtain ⟨ends, batched⟩ := exec_ensures faults (0, slots) (fun _ => trivial)
    (@ensures_reconciliation (scanSlots slots) wallUtcSeconds monotonicSeconds timeValid
      (fun _ => True) record)
  refine ⟨ends, fun reconciled => ?_⟩
  cases timeValid with
  | false => cases reconciled
  | true =>
      obtain ⟨newest, lateness, journal, batch, left⟩ := batched reconciled
      have left : scanSlots run.2.2 = Register.withJournal (scanSlots slots) journal := left
      rw [← batch.again_iff record, ← left]
      constructor
      · intro quiet can
        have loaded : (scanSlots run.2.2).status = .loaded := by rw [left]; rfl
        exact exec_writes loaded can (quiet (fun _ => {}) 0).1
      · intro spent later turn
        obtain ⟨silent, harmless⟩ := exec_ensures later (turn, run.2.2) (fun _ => trivial)
          (@ensures_quiet (scanSlots run.2.2) wallUtcSeconds monotonicSeconds (fun _ => True) spent)
        exact ⟨exec_quiet later _ _ fun e mem => harmless _ (List.mem_map_of_mem mem), silent⟩

/-- Two alarms, stored latest first; at 1000 one rings and the other one is missed. -/
def crossedSchedule : ScheduleSnapshot :=
  { revision := 1, timezoneRulesVersion := [0x31]
    alarms := [⟨[0x77], 1, true, 1000⟩, ⟨[0x66], 1, true, 100⟩] }

/-- The call records the miss and the ring, and a second one writes nothing, whatever the
storage does. -/
theorem reconciliation_classifies_crossed :
    let reconcile := reconcileAfterTimeValid 1000 5 true
    let run := exec (faultyStore fun _ => {}) reconcile (0, firstStore crossedSchedule)
    run.1.status = .reconciled ∧
      Slots.journal run.2.2 =
        { active := some (admittedOccurrence ⟨[0x77], 1, true, 1000⟩ 1000 5)
          terminal := [invalidTimeRecord ⟨[0x66], 1, true, 100⟩]
          terminalHighWatermarks := [⟨[0x66], 100⟩] } ∧
      ∀ (later : ℕ → StorageFaults) (turn : ℕ),
        let again := exec (faultyStore later) reconcile (turn, run.2.2)
        again.2.2 = run.2.2 ∧ again.1.edges = [] := by
  have loaded := @scanSlots_firstStore crossedSchedule rfl (by decide +kernel)
  obtain ⟨done, final⟩ := exec_register (fun _ => {}) (reconcileAfterTimeValid 1000 5 true)
    (firstStore crossedSchedule)
  rw [loaded] at done final
  have status : (exec (faultyStore fun _ => {}) (reconcileAfterTimeValid 1000 5 true)
      (0, firstStore crossedSchedule)).1.status = .reconciled := by
    rw [done]
    decide +kernel
  obtain ⟨-, repeats⟩ := reconciliation_classifies (fun _ => {}) 1000 5 true
    (show (scanSlots (firstStore crossedSchedule)).status = .loaded by rw [loaded])
  dsimp only at repeats ⊢
  refine ⟨status, ?_, (repeats status).mpr fun resurfaces => ?_⟩
  · rw [Slots.journal, final]
    decide +kernel
  · obtain ⟨newest, last, lateness, elapsed, late⟩ := resurfaces.late
    rw [loaded] at last
    obtain rfl : newest = ⟨[0x77], 1, true, 1000⟩ := by
      have isLast : (crossedCandidates crossedSchedule 1000).getLast? =
          some ⟨[0x77], 1, true, 1000⟩ := by decide +kernel
      exact Option.some.inj (last.symm.trans isLast)
    obtain rfl : lateness = 0 := by
      have zero : checkedElapsed 1000 1000 = some 0 := by decide
      exact Option.some.inj (elapsed.symm.trans zero)
    revert late
    decide

/-- Two alarms; the terminal list is full, and its oldest record, which no watermark
covers, is the first alarm's. -/
def fullSchedule : ScheduleSnapshot :=
  { revision := 1, timezoneRulesVersion := [0x31]
    alarms := [⟨[0x66], 1, true, 100⟩, ⟨[0x77], 1, true, 200⟩]
    occurrenceState :=
      { terminal := ⟨makeOccurrenceId ⟨[0x66], 1, true, 100⟩, .dismissed⟩ ::
          (List.range 31).map fun n => ⟨[0x6e, UInt8.ofNat (0x40 + n)], .dismissed⟩ } }

/-- The first call misses the second alarm, which evicts the first alarm's record; the
second call then misses the first alarm. -/
theorem evicted_record_is_reconciled :
    let reconcile := reconcileAfterTimeValid 2000 5 true
    let run := exec (performStore {}) reconcile (firstStore fullSchedule)
    let again := exec (performStore {}) reconcile run.2
    (scanSlots (firstStore fullSchedule)).status = .loaded ∧ run.1.status = .reconciled ∧
      again.1.status = .reconciled ∧ again.2 ≠ run.2 := by
  intro reconcile run again
  have loaded := @scanSlots_firstStore fullSchedule rfl (by decide +kernel)
  obtain ⟨first, firstFinal⟩ := exec_healthy reconcile (firstStore fullSchedule)
  obtain ⟨second, secondFinal⟩ := exec_healthy reconcile run.2
  rw [loaded] at first firstFinal
  rw [show scanSlots run.2 = _ from firstFinal] at second secondFinal
  refine ⟨by rw [loaded], ?_, ?_, fun same => ?_⟩
  · rw [show run.1 = _ from first]
    decide +kernel
  · rw [show again.1 = _ from second]
    decide +kernel
  · have same := congrArg (fun slots => (scanSlots slots).generation) same
    rw [show scanSlots again.2 = _ from secondFinal, show scanSlots run.2 = _ from firstFinal] at same
    revert same
    decide +kernel

end DawnDock
