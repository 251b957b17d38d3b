import DawnDock.Clients.DuePass
import DawnDock.Clients.Alerts

/-!
Which occurrence rings after a restart.

`RebootRule` is the documented rule: of the occurrences crossed while the power was off
only the newest may ring, within the grace, and the others are missed. A reconciliation
follows it. The due pass of a tick that owes none admits the oldest occurrence within the
grace and answers `conflict` for every later one; it follows the rule exactly where no
crossed occurrence meets such a conflict (`Unobstructed`), or where it is cut short.

* `reboot_rule_iff`: the first tick of a boot follows the rule exactly then.
* `two_crossed_break_reboot_rule`: two occurrences within the grace.
-/

namespace DawnDock

open AtomicProgram

/-- What a restart at `wallUtcSeconds` does to the crossed occurrences of `snapshot`. -/
structure RebootRule (snapshot : ScheduleSnapshot) (wallUtcSeconds : Int64)
    (status : RuntimeTickStatus) (journal : PersistentAlarmState) : Prop where
  /-- One of the latest instant, at most 600 seconds late, may ring. -/
  rings : ∀ alarm ∈ snapshot.alarms,
    crossedNow snapshot.occurrenceState wallUtcSeconds alarm = true →
    (∃ a ∈ journal.active, a.occurrenceId = makeOccurrenceId alarm.definition) →
      (∀ other ∈ snapshot.alarms,
        crossedNow snapshot.occurrenceState wallUtcSeconds other = true →
          other.scheduledUtcSeconds.toInt ≤ alarm.scheduledUtcSeconds.toInt) ∧
        wallUtcSeconds.toInt - alarm.scheduledUtcSeconds.toInt ≤ 600
  /-- A completed tick has recorded every other one missed. -/
  missed : status = .evaluated → ∀ alarm ∈ snapshot.alarms,
    crossedNow snapshot.occurrenceState wallUtcSeconds alarm = true →
      (∃ a ∈ journal.active, a.occurrenceId = makeOccurrenceId alarm.definition) ∨
        ∃ reason, (reason = .forwardJump ∨ reason = .invalidTime) ∧
          ⟨makeOccurrenceId alarm.definition, reason⟩ ∈ journal.terminal

/-! ### The course of a due pass -/

section

variable (wallUtcSeconds monotonicSeconds : Int64)

/-- The pass comes to its end: no lateness is unrepresentable, and the generations last. -/
def PassEnds : List StoredAlarmDefinition → UInt64 → PersistentAlarmState → Prop
  | [], _, _ => True
  | alarm :: rest, generation, journal =>
      let due := evaluateDue alarm.definition journal wallUtcSeconds monotonicSeconds true
      due.1.status ≠ .invalidTime ∧
        (due.1.persistBeforeEffects = true → generation ≠ uint64Max) ∧
        PassEnds rest (if due.1.persistBeforeEffects then generation + 1 else generation) due.2

/-- Whenever the pass comes to a `crossed` alarm, nothing is active and the watermark table
can take the alarm: no turn of one is answered with `conflict`. -/
def Unobstructed (crossed : StoredAlarmDefinition → Bool) :
    List StoredAlarmDefinition → PersistentAlarmState → Prop
  | [], _ => True
  | alarm :: rest, journal =>
      (crossed alarm = true → journal.active = none ∧ canTrackTerminal journal alarm.id = true) ∧
        Unobstructed crossed rest
          (evaluateDue alarm.definition journal wallUtcSeconds monotonicSeconds true).2

end

section

variable {wallUtcSeconds monotonicSeconds : Int64} {crossed : StoredAlarmDefinition → Bool}
  {alarms rest : List StoredAlarmDefinition} {alarm : StoredAlarmDefinition}
  {state : PersistentAlarmState} {current : Register} {evaluation : CommittedScheduleEvaluation}
  {final : CommittedScheduleEvaluation × Register}

/-- The crossed alarms a pass has still to come to. -/
structure Unsettled (crossed : StoredAlarmDefinition → Bool) (wallUtcSeconds : Int64)
    (alarms : List StoredAlarmDefinition) (journal : PersistentAlarmState) : Prop where
  distinct : (alarms.map (·.id)).Nodup
  fresh : ∀ alarm ∈ alarms, crossed alarm = true → crossedNow journal wallUtcSeconds alarm = true
  apart : ∀ a ∈ journal.active, ∀ alarm ∈ alarms,
    a.occurrenceId ≠ makeOccurrenceId alarm.definition
  few : journal.terminal.length ≤ kRecentTerminalRetention

theorem Unsettled.head_ne (unsettled : Unsettled crossed wallUtcSeconds (alarm :: rest) state) :
    ∀ other ∈ rest, other.id ≠ alarm.id := by
  intro other mem same
  have again : other.id ∈ rest.map (·.id) := List.mem_map_of_mem mem
  rw [same] at again
  exact (List.nodup_cons.mp unsettled.distinct).1 again

theorem Unsettled.next (unsettled : Unsettled crossed wallUtcSeconds (alarm :: rest) state) :
    Unsettled crossed wallUtcSeconds rest
      (evaluateDue alarm.definition state wallUtcSeconds monotonicSeconds true).2 := by
  have ⟨distinct, fresh, apart, few⟩ := unsettled
  have others := unsettled.head_ne
  have tail : (rest.map (·.id)).Nodup := (List.nodup_cons.mp distinct).2
  have outcome := evaluateDue_outcome wallUtcSeconds monotonicSeconds state alarm
  generalize evaluateDue alarm.definition state wallUtcSeconds monotonicSeconds true = done
    at outcome ⊢
  cases outcome with
  | quiet | unusable =>
      exact ⟨tail, fun other mem => fresh other (List.mem_cons_of_mem _ mem),
        fun a held other mem => apart a held other (List.mem_cons_of_mem _ mem), few⟩
  | missed _ _ _ idle =>
      refine ⟨tail, fun other mem isCrossed => ?_, fun a held => ?_, appendTerminal_length_le few⟩
      · obtain ⟨enabled, due, unjournaled⟩ :=
          crossedNow_iff.mp (fresh other (List.mem_cons_of_mem _ mem) isCrossed)
        exact crossedNow_iff.mpr
          ⟨enabled, due, unjournaled.missOccurrence (others other mem) .forwardJump⟩
      · rw [missOccurrence_idle idle] at held
        cases held
  | admitted =>
      refine ⟨tail, fun other mem => fresh other (List.mem_cons_of_mem _ mem), ?_, few⟩
      intro a held other mem same
      obtain rfl := Option.some.inj held
      exact others other mem (makeOccurrenceId_inj same).1.symm

/-- A pass reports that it came to its end exactly where it does. -/
theorem HealthyPass.evaluated_iff
    (pass : HealthyPass wallUtcSeconds monotonicSeconds alarms current evaluation final)
    (fresh : evaluation.status = .evaluated) :
    final.1.status = .evaluated ↔ PassEnds wallUtcSeconds monotonicSeconds alarms
      current.generation current.snapshot.occurrenceState := by
  induction pass with
  | done => simp [PassEnds, fresh]
  | unusable decided status => simp [PassEnds, decided, status]
  | quiet decided usable keeps later ih =>
      rw [ih fresh]
      simp [PassEnds, decided, usable, keeps]
  | refused decided usable persists last => simp [PassEnds, decided, persists, last]
  | stored decided usable persists valid room later ih =>
      rw [ih fresh]
      simp only [PassEnds, decided, persists, if_true, ne_eq, usable, not_false_iff, true_and, room,
        forall_const]
      rfl

/-- A pass that does not come to its end leaves nothing active. -/
theorem HealthyPass.idle_of_cut
    (pass : HealthyPass wallUtcSeconds monotonicSeconds alarms current evaluation final)
    (fresh : evaluation.status = .evaluated) (cut : final.1.status ≠ .evaluated) :
    final.2.snapshot.occurrenceState.active = none := by
  induction pass with
  | done => exact absurd fresh cut
  | unusable decided status => exact ((decided_outcome decided).crossed (.inl status)).1
  | quiet decided usable keeps later ih => exact ih fresh cut
  | refused decided usable persists => exact ((decided_outcome decided).crossed (.inr persists)).1
  | stored decided usable persists valid room later ih => exact ih fresh cut

/-- A pass without a conflict misses the crossed occurrences, or admits one. -/
theorem HealthyPass.settles
    (pass : HealthyPass wallUtcSeconds monotonicSeconds alarms current evaluation final)
    (ends : final.1.status = .evaluated)
    (unsettled : Unsettled crossed wallUtcSeconds alarms current.snapshot.occurrenceState)
    (clear : Unobstructed wallUtcSeconds monotonicSeconds crossed alarms
      current.snapshot.occurrenceState) :
    ∃ new, final.2.snapshot.occurrenceState.terminal =
        retain (current.snapshot.occurrenceState.terminal ++ new) ∧
      new.length ≤ alarms.length ∧ ∀ alarm ∈ alarms, crossed alarm = true →
        ⟨makeOccurrenceId alarm.definition, .forwardJump⟩ ∈ new ∨
          final.2.snapshot.occurrenceState.active =
            some (admittedOccurrence alarm wallUtcSeconds monotonicSeconds) := by
  induction pass with
  | @done current evaluation =>
      refine ⟨[], ?_, le_refl _, by simp⟩
      rw [List.append_nil, retain_of_le unsettled.few]
  | unusable | refused => cases ends
  | @quiet current evaluation alarm rest result final decided usable keeps later ih =>
      have next := @Unsettled.next _ monotonicSeconds _ _ _ _ unsettled
      obtain ⟨free, clear⟩ := clear
      rw [decided] at next clear
      obtain ⟨new, records, few, settled⟩ := ih ends next clear
      refine ⟨new, records, Nat.le_succ_of_le few, ?_⟩
      intro other mem isCrossed
      rcases List.mem_cons.mp mem with rfl | mem
      · obtain ⟨idle, room⟩ := free isCrossed
        rw [(decided_outcome decided).full keeps usable idle
          (unsettled.fresh _ List.mem_cons_self isCrossed)] at room
        cases room
      · exact settled other mem isCrossed
  | @stored current evaluation alarm rest result journal final decided usable persists valid room
      later ih =>
      have next := @Unsettled.next _ monotonicSeconds _ _ _ _ unsettled
      obtain ⟨-, clear⟩ := clear
      rw [decided] at next clear
      obtain ⟨new, records, few, settled⟩ := ih ends next clear
      have outcome := decided_outcome decided
      have unrecorded := unrecorded_of_crossed (outcome.crossed (.inr persists)).2
      obtain ⟨-, lateness, -, ⟨-, -, missed⟩ | ⟨-, -, admitted⟩⟩ := outcome.journals persists
      · obtain rfl := missed
        have first : (missOccurrence current.snapshot.occurrenceState alarm .forwardJump).terminal =
            retain (current.snapshot.occurrenceState.terminal ++
              [⟨makeOccurrenceId alarm.definition, .forwardJump⟩]) :=
          appendTerminal_fresh unrecorded
        refine ⟨⟨makeOccurrenceId alarm.definition, .forwardJump⟩ :: new, ?_,
          Nat.succ_le_succ few, ?_⟩
        · have whole : final.2.snapshot.occurrenceState.terminal =
              retain ((missOccurrence current.snapshot.occurrenceState alarm
                .forwardJump).terminal ++ new) := records
          rw [whole, first, retain_append, List.append_assoc, List.singleton_append]
        · intro other mem isCrossed
          rcases List.mem_cons.mp mem with rfl | mem
          · exact .inl List.mem_cons_self
          · exact (settled other mem isCrossed).imp_left (List.mem_cons_of_mem _)
      · obtain rfl := admitted
        refine ⟨new, records, Nat.le_succ_of_le few, ?_⟩
        intro other mem isCrossed
        rcases List.mem_cons.mp mem with rfl | mem
        · exact .inr (later.retains.active _ rfl)
        · exact settled other mem isCrossed

/-- An alarm that is not journaled, nor to come, stays out of the journal. -/
theorem HealthyPass.unjournaled
    (pass : HealthyPass wallUtcSeconds monotonicSeconds rest current evaluation final)
    (crossed : crossedNow current.snapshot.occurrenceState wallUtcSeconds alarm = true)
    (apart : ∀ a ∈ current.snapshot.occurrenceState.active,
      a.occurrenceId ≠ makeOccurrenceId alarm.definition)
    (gone : ∀ other ∈ rest, other.id ≠ alarm.id) :
    (∀ a ∈ final.2.snapshot.occurrenceState.active,
        a.occurrenceId ≠ makeOccurrenceId alarm.definition) ∧
      ∀ t ∈ final.2.snapshot.occurrenceState.terminal,
        t.occurrenceId ≠ makeOccurrenceId alarm.definition := by
  constructor
  · intro a held same
    rcases pass.active_origin held with old | ⟨other, name, fresh⟩
    · exact apart a old same
    · exact gone other fresh.mem (makeOccurrenceId_inj (name.trans same)).1
  · intro t mem same
    rcases pass.terminal_origin mem with old | ⟨other, name, fresh⟩
    · exact unrecorded_of_crossed crossed (List.mem_map.mpr ⟨t, old, same⟩)
    · exact gone other fresh.mem (makeOccurrenceId_inj (name.trans same)).1

/-- A pass that journals every crossed occurrence comes to no conflict. -/
theorem HealthyPass.unobstructed
    (pass : HealthyPass wallUtcSeconds monotonicSeconds alarms current evaluation final)
    (ends : final.1.status = .evaluated)
    (unsettled : Unsettled crossed wallUtcSeconds alarms current.snapshot.occurrenceState)
    (journaled : ∀ alarm ∈ alarms, crossed alarm = true →
      (∃ a ∈ final.2.snapshot.occurrenceState.active,
          a.occurrenceId = makeOccurrenceId alarm.definition) ∨
        ∃ t ∈ final.2.snapshot.occurrenceState.terminal,
          t.occurrenceId = makeOccurrenceId alarm.definition) :
    Unobstructed wallUtcSeconds monotonicSeconds crossed alarms
      current.snapshot.occurrenceState := by
  induction pass with
  | done => trivial
  | unusable | refused => cases ends
  | @quiet current evaluation alarm rest result final decided usable keeps later ih =>
      have next := @Unsettled.next _ monotonicSeconds _ _ _ _ unsettled
      rw [decided] at next
      simp only [Unobstructed, decided]
      refine ⟨fun isCrossed => ?_,
        ih ends next fun other mem => journaled other (List.mem_cons_of_mem _ mem)⟩
      obtain ⟨inactive, unrecorded⟩ := later.unjournaled
        (unsettled.fresh alarm List.mem_cons_self isCrossed)
        (fun a held => unsettled.apart a held alarm List.mem_cons_self) unsettled.head_ne
      rcases journaled alarm List.mem_cons_self isCrossed with ⟨a, held, name⟩ | ⟨t, mem, name⟩
      · exact absurd name (inactive a held)
      · exact absurd name (unrecorded t mem)
  | @stored current evaluation alarm rest result journal final decided usable persists valid room
      later ih =>
      have next := @Unsettled.next _ monotonicSeconds _ _ _ _ unsettled
      rw [decided] at next
      simp only [Unobstructed, decided]
      have outcome := decided_outcome decided
      exact ⟨fun _ => ⟨(outcome.crossed (.inr persists)).1, (outcome.journals persists).1⟩,
        ih ends next fun other mem => journaled other (List.mem_cons_of_mem _ mem)⟩

/-- Behind an admission nothing crossed is left of an unobstructed pass. -/
theorem Unobstructed.busy {active : ActiveOccurrence} (held : state.active = some active)
    (clear : Unobstructed wallUtcSeconds monotonicSeconds crossed alarms state) :
    ∀ alarm ∈ alarms, crossed alarm = false := by
  induction alarms with
  | nil => simp
  | cons alarm rest ih =>
      have kept : (evaluateDue alarm.definition state wallUtcSeconds monotonicSeconds true).2 =
          state := evaluateDue_busy (by simp [held])
      obtain ⟨free, clear⟩ := clear
      rw [kept] at clear
      intro other mem
      rcases List.mem_cons.mp mem with rfl | mem
      · by_contra isCrossed
        obtain ⟨idle, -⟩ := free (by simpa using isCrossed)
        rw [held] at idle
        cases idle
      · exact ih clear other mem

theorem scheduled_le_of_before {first second : StoredAlarmDefinition}
    (before : scheduledBefore first second = true) :
    first.scheduledUtcSeconds.toInt ≤ second.scheduledUtcSeconds.toInt := by
  rcases scheduledBefore_iff.mp before with earlier | ⟨same, -⟩
  · exact Int.le_of_lt (Int64.lt_iff_toInt_lt.mp earlier)
  · exact same ▸ Int.le_refl _

/-- If the head of a sorted schedule is not chosen, a choice that is the latest of the tail
is the latest of all. -/
theorem latest_of_tail {chosen : StoredAlarmDefinition → Prop}
    (before : ∀ other ∈ rest, scheduledBefore alarm other = true) (passed : ¬ chosen alarm)
    (tail : ∀ choice ∈ rest, chosen choice → ∀ other ∈ rest, crossed other = true →
      other.scheduledUtcSeconds.toInt ≤ choice.scheduledUtcSeconds.toInt) :
    ∀ choice ∈ alarm :: rest, chosen choice → ∀ other ∈ alarm :: rest, crossed other = true →
      other.scheduledUtcSeconds.toInt ≤ choice.scheduledUtcSeconds.toInt := by
  intro choice mem isChosen other memOther isCrossed
  rcases List.mem_cons.mp mem with rfl | later
  · exact absurd isChosen passed
  · rcases List.mem_cons.mp memOther with rfl | laterOther
    · exact scheduled_le_of_before (before choice later)
    · exact tail choice later isChosen other laterOther isCrossed

/-- What an unobstructed pass admits comes behind every other crossed occurrence. -/
theorem HealthyPass.admits_last
    (pass : HealthyPass wallUtcSeconds monotonicSeconds alarms current evaluation final)
    (ends : final.1.status = .evaluated)
    (sorted : alarms.Pairwise (scheduledBefore · · = true))
    (unsettled : Unsettled crossed wallUtcSeconds alarms current.snapshot.occurrenceState)
    (clear : Unobstructed wallUtcSeconds monotonicSeconds crossed alarms
      current.snapshot.occurrenceState) :
    ∀ alarm ∈ alarms, (∃ a ∈ final.2.snapshot.occurrenceState.active,
        a.occurrenceId = makeOccurrenceId alarm.definition) →
      ∀ other ∈ alarms, crossed other = true →
        other.scheduledUtcSeconds.toInt ≤ alarm.scheduledUtcSeconds.toInt := by
  induction pass with
  | done => simp
  | unusable | refused => cases ends
  | @quiet current evaluation alarm rest result final decided usable keeps later ih =>
      have next := @Unsettled.next _ monotonicSeconds _ _ _ _ unsettled
      obtain ⟨before, sorted⟩ := List.pairwise_cons.mp sorted
      obtain ⟨-, clear⟩ := clear
      rw [decided] at next clear
      refine latest_of_tail before ?_ (ih ends sorted next clear)
      rintro ⟨a, held, name⟩
      rcases later.active_origin held with old | ⟨other, same, fresh⟩
      · exact unsettled.apart a old alarm List.mem_cons_self name
      · exact unsettled.head_ne other fresh.mem (makeOccurrenceId_inj (same.trans name)).1
  | @stored current evaluation alarm rest result journal final decided usable persists valid room
      later ih =>
      have next := @Unsettled.next _ monotonicSeconds _ _ _ _ unsettled
      obtain ⟨before, sorted⟩ := List.pairwise_cons.mp sorted
      obtain ⟨-, clear⟩ := clear
      rw [decided] at next clear
      have outcome := decided_outcome decided
      obtain ⟨-, lateness, -, ⟨-, -, missed⟩ | ⟨-, -, admitted⟩⟩ := outcome.journals persists
      · obtain rfl := missed
        refine latest_of_tail before ?_ (ih ends sorted next clear)
        rintro ⟨a, held, name⟩
        rcases later.active_origin held with old | ⟨other, same, fresh⟩
        · have still : a ∈ (missOccurrence current.snapshot.occurrenceState alarm
              .forwardJump).active := old
          rw [missOccurrence_idle (outcome.crossed (.inr persists)).1] at still
          cases still
        · exact unsettled.head_ne other fresh.mem (makeOccurrenceId_inj (same.trans name)).1
      · -- The alarm is admitted: what follows it is not crossed.
        obtain rfl := admitted
        have none := Unobstructed.busy rfl clear
        rintro chosen mem ⟨a, held, name⟩ other memOther isCrossed
        have rings := later.retains.active _ rfl
        obtain rfl := Option.mem_unique held rings
        have chosenId : chosen.id = alarm.id := (makeOccurrenceId_inj name).1.symm
        rcases List.mem_cons.mp mem with rfl | mem
        · rcases List.mem_cons.mp memOther with rfl | memOther
          · exact Int.le_refl _
          · rw [none other memOther] at isCrossed
            cases isCrossed
        · exact absurd chosenId (unsettled.head_ne chosen mem)

end

/-! ### The two passes -/

section

variable {current : Register} {wallUtcSeconds monotonicSeconds : Int64}

/-- Where nothing is active and the tick did not complete, there is nothing to show. -/
theorem rebootRule_cut {status : RuntimeTickStatus} {journal : PersistentAlarmState}
    (idle : journal.active = none) (cut : status ≠ .evaluated) :
    RebootRule current.snapshot wallUtcSeconds status journal where
  rings alarm mem crossed := by
    rintro ⟨a, held, -⟩
    rw [idle] at held
    cases held
  missed ends := absurd ends cut

theorem HealthyReconciliation.record {recovery : InvalidTimeRecoveryResult} {final : Register}
    (record : ValidRecord current) (reconciled : HealthyReconciliation current wallUtcSeconds
      monotonicSeconds (recovery, final)) : ValidRecord final := by
  cases reconciled with
  | deferred | nothing | unknown | full | refused => exact record
  | reconciled _ _ _ valid => exact record.withJournal valid

/-- A reconciliation follows the rule. -/
theorem HealthyReconciliation.rebootRule {recovery : InvalidTimeRecoveryResult} {final : Register}
    (record : ValidRecord current) (idle : current.snapshot.occurrenceState.active = none)
    (reconciled : HealthyReconciliation current wallUtcSeconds monotonicSeconds
      (recovery, final)) :
    RebootRule current.snapshot wallUtcSeconds (statusFromRecovery recovery.status)
      final.snapshot.occurrenceState := by
  cases reconciled with
  | deferred _ busy => exact absurd idle busy
  | unknown status | full status | refused status =>
      exact rebootRule_cut idle (by simp [status, statusFromRecovery])
  | nothing _ _ empty =>
      have uncrossed : ∀ alarm ∈ current.snapshot.alarms,
          crossedNow current.snapshot.occurrenceState wallUtcSeconds alarm = true → False := by
        intro alarm mem crossed
        have listed := mem_crossedCandidates.mpr ⟨mem, crossed⟩
        rw [empty] at listed
        cases listed
      exact ⟨fun alarm mem crossed => (uncrossed alarm mem crossed).elim,
        fun _ alarm mem crossed => (uncrossed alarm mem crossed).elim⟩
  | @reconciled _ _ _ journal _ batch =>
      have classified := batch.classified record
      obtain ⟨newest, newestMem, newestCrossed, others, lateness, elapsed, final⟩ :=
        classified.newest
      constructor
      · rintro alarm mem crossed ⟨a, held, name⟩
        have held : journal.active = some a := held
        rcases final with ⟨grace, rings⟩ | ⟨-, idle, -⟩
        · rw [rings] at held
          obtain rfl := Option.some.inj held
          have same : newest.id = alarm.id := (makeOccurrenceId_inj name).1
          obtain rfl := List.inj_on_of_nodup_map record.schedule.ids newestMem mem same
          constructor
          · intro other memOther crossedOther
            by_cases itself : other = newest
            · rw [itself]
            · exact scheduled_le_of_before (others other memOther crossedOther itself).1
          · rw [← (toInt_of_checkedElapsed elapsed).1]
            exact Int64.le_iff_toInt_le.mp grace
        · rw [idle] at held
          cases held
      · intro _ alarm mem crossed
        by_cases itself : alarm = newest
        · subst itself
          rcases final with ⟨-, rings⟩ | ⟨-, -, missed⟩
          · exact .inl ⟨_, rings, rfl⟩
          · exact .inr ⟨_, .inr rfl, missed⟩
        · exact .inr ⟨_, .inr rfl, (others alarm mem crossed itself).2⟩

theorem statusFromEvaluation_evaluated {status : CommittedEvaluationStatus} :
    statusFromEvaluation status = .evaluated ↔ status = .evaluated := by
  cases status <;> simp [statusFromEvaluation]

/-- The due pass follows the rule exactly where it meets no conflict, or is cut short. -/
theorem HealthyPass.rebootRule_iff {final : CommittedScheduleEvaluation × Register}
    (record : ValidRecord current) (idle : current.snapshot.occurrenceState.active = none)
    (pass : HealthyPass wallUtcSeconds monotonicSeconds (sortAlarms current.snapshot.alarms)
      current current.evaluation final) :
    RebootRule current.snapshot wallUtcSeconds (statusFromEvaluation final.1.status)
        final.2.snapshot.occurrenceState ↔
      ¬ PassEnds wallUtcSeconds monotonicSeconds (sortAlarms current.snapshot.alarms)
          current.generation current.snapshot.occurrenceState ∨
        Unobstructed wallUtcSeconds monotonicSeconds
          (crossedNow current.snapshot.occurrenceState wallUtcSeconds)
          (sortAlarms current.snapshot.alarms) current.snapshot.occurrenceState := by
  have unsettled : Unsettled (crossedNow current.snapshot.occurrenceState wallUtcSeconds)
      wallUtcSeconds (sortAlarms current.snapshot.alarms) current.snapshot.occurrenceState := by
    constructor
    · exact ((sortAlarms_perm _).map _).nodup_iff.mpr record.schedule.ids
    · exact fun alarm _ crossed => crossed
    · simp [idle]
    · exact record.journal.terminalCount
  rw [← pass.evaluated_iff rfl, ← statusFromEvaluation_evaluated]
  by_cases ends : statusFromEvaluation final.1.status = .evaluated
  swap
  · have cut : final.1.status ≠ .evaluated := by rwa [← statusFromEvaluation_evaluated.ne]
    exact iff_of_true (rebootRule_cut (pass.idle_of_cut rfl cut) ends) (.inl ends)
  have evaluated := statusFromEvaluation_evaluated.mp ends
  rw [or_iff_right (not_not.mpr ends)]
  constructor
  · rintro ⟨-, missed⟩
    refine pass.unobstructed evaluated unsettled fun alarm mem crossed => ?_
    rcases missed ends alarm (mem_sortAlarms.mp mem) crossed with rings | ⟨reason, -, recorded⟩
    · exact .inl rings
    · exact .inr ⟨_, recorded, rfl⟩
  · intro clear
    constructor
    · rintro alarm mem crossed ⟨a, held, name⟩
      constructor
      · intro other memOther crossedOther
        exact pass.admits_last evaluated (sortAlarms_sorted record.schedule.ids) unsettled clear
          alarm (mem_sortAlarms.mpr mem) ⟨a, held, name⟩ other (mem_sortAlarms.mpr memOther)
          crossedOther
      · rcases pass.active_origin held with old | ⟨other, same, fresh⟩
        · rw [idle] at old
          cases old
        have sameId : other.id = alarm.id := (makeOccurrenceId_inj (same.trans name)).1
        obtain rfl := List.inj_on_of_nodup_map record.schedule.ids
          (mem_sortAlarms.mp fresh.mem) mem sameId
        obtain ⟨lateness, elapsed, ⟨-, -, recorded⟩ | ⟨grace, -⟩⟩ := fresh.classified
        · have apart := (pass.record record).journal.activeNotTerminal a held
          rw [← same] at apart
          exact absurd (List.mem_map_of_mem recorded) apart
        · rw [← (toInt_of_checkedElapsed elapsed).1]
          exact Int64.le_iff_toInt_le.mp grace
    · intro _ alarm mem crossed
      obtain ⟨new, records, few, settled⟩ := pass.settles evaluated unsettled clear
      have fits : new.length ≤ kRecentTerminalRetention := by
        rw [(sortAlarms_perm _).length_eq] at few
        exact Nat.le_trans few record.schedule.count
      rcases settled alarm (mem_sortAlarms.mpr mem) crossed with missed | rings
      · refine .inr ⟨_, .inl rfl, ?_⟩
        rw [records]
        exact mem_retain fits missed
      · exact .inl ⟨_, rings, rfl⟩

/-! ### The tick -/

variable {state : RuntimeCoordinatorState} {observation : RuntimeTickObservation}

/-- With nothing active, a tick that owes a reconciliation is that reconciliation. -/
theorem exec_idle_latched (record : ValidRecord current)
    (idle : current.snapshot.occurrenceState.active = none)
    (timeValid : observation.timeValid = true) (owed : state.reconciliationPending = true) :
    let run := exec healthyRegister (runRuntimeTick state observation) current
    ∃ recovery, run.1.1.status = statusFromRecovery recovery.status ∧
      HealthyReconciliation current observation.wallUtcSeconds observation.monotonicSeconds
        (recovery, run.2) := by
  intro run
  have whole : run = exec healthyRegister (runRuntimeTick state observation) current := rfl
  simp only [runRuntimeTick, timeValid, owed, Bool.not_true, Bool.false_eq_true, if_false,
    if_true, latchedTick, settleLoaded] at whole
  rw [exec_bind, exec_load] at whole
  simp only [record.loaded, ne_eq, not_true, if_false, settleActiveOccurrence, idle] at whole
  change run = exec healthyRegister (reconcileAfterTimeValid _ _ _ >>= _) current at whole
  rw [exec_bind] at whole
  rw [whole]
  exact ⟨_, rfl, exec_reconcileAfterTimeValid record⟩

/-- One that owes none is the due pass. -/
theorem exec_idle_unlatched (record : ValidRecord current)
    (idle : current.snapshot.occurrenceState.active = none)
    (timeValid : observation.timeValid = true) (clear : state.reconciliationPending = false) :
    let run := exec healthyRegister (runRuntimeTick state observation) current
    ∃ evaluation, run.1.1.status = statusFromEvaluation evaluation.status ∧
      HealthyPass observation.wallUtcSeconds observation.monotonicSeconds
        (sortAlarms current.snapshot.alarms) current current.evaluation (evaluation, run.2) := by
  intro run
  have pass := @exec_evaluateAlarms observation.wallUtcSeconds observation.monotonicSeconds current
    _ (sortAlarms current.snapshot.alarms) record (inStep_evaluation current)
    fun alarm mem => record.schedule.validIds alarm (mem_sortAlarms.mp mem)
  have evaluated := @exec_evaluate_idle current observation.wallUtcSeconds
    observation.monotonicSeconds [] record idle
  have tick (result : RuntimeTickResult) (after : RuntimeCoordinatorState) :
      ∃ done, exec healthyRegister (do
          return (← evaluationTick observation result, after)) current = done ∧
        done.1.1.status = statusFromEvaluation (exec healthyRegister
          (evaluateCommittedSchedule observation.wallUtcSeconds observation.monotonicSeconds true
            []) current).1.status ∧
        done.2 = (exec healthyRegister (evaluateCommittedSchedule observation.wallUtcSeconds
          observation.monotonicSeconds true []) current).2 := by
    refine ⟨_, rfl, ?_⟩
    rw [exec_bind, evaluationTick, exec_bind]
    exact ⟨rfl, rfl⟩
  have course : ∃ result after, run = exec healthyRegister (do
      return (← evaluationTick observation result, after)) current := by
    have whole : run = exec healthyRegister (runRuntimeTick state observation) current := rfl
    simp only [runRuntimeTick, timeValid, clear, Bool.not_true, Bool.false_eq_true, if_false]
      at whole
    split at whole
    · rw [exec_bind, settleLoaded, exec_load] at whole
      simp only [record.loaded, ne_eq, not_true, if_false, settleActiveOccurrence, idle] at whole
      exact ⟨_, _, whole⟩
    · exact ⟨_, _, whole⟩
  obtain ⟨result, after, same⟩ := course
  obtain ⟨done, rfl, status, final⟩ := tick result after
  rw [evaluated] at status final
  rw [same]
  refine ⟨_, status, ?_⟩
  rw [final]
  exact pass

end

/-- Over healthy storage and without a writer beside it, with nothing active: a valid tick
follows the rule exactly if it owes a reconciliation, or its due pass is cut short or meets
no conflict. The first tick of a boot is such a tick. -/
theorem reboot_rule_iff {slots : Slots} (state : RuntimeCoordinatorState)
    {observation : RuntimeTickObservation} (loaded : (scanSlots slots).status = .loaded)
    (idle : (scanSlots slots).snapshot.occurrenceState.active = none)
    (timeValid : observation.timeValid = true) :
    let snapshot := (scanSlots slots).snapshot
    let run := exec (performStore {}) (runRuntimeTick state observation) slots
    RebootRule snapshot observation.wallUtcSeconds run.1.1.status (Slots.journal run.2) ↔
      state.reconciliationPending = true ∨
        ¬ PassEnds observation.wallUtcSeconds observation.monotonicSeconds
            (sortAlarms snapshot.alarms) (scanSlots slots).generation snapshot.occurrenceState ∨
          Unobstructed observation.wallUtcSeconds observation.monotonicSeconds
            (crossedNow snapshot.occurrenceState observation.wallUtcSeconds)
            (sortAlarms snapshot.alarms) snapshot.occurrenceState := by
  intro snapshot run
  have record := validRecord_scanSlots loaded
  obtain ⟨first, final⟩ := exec_healthy (runRuntimeTick state observation) slots
  have status : run.1.1.status =
      (exec healthyRegister (runRuntimeTick state observation) (scanSlots slots)).1.1.status := by
    rw [← first]
  cases latch : state.reconciliationPending with
  | true =>
      obtain ⟨recovery, same, reconciled⟩ := exec_idle_latched record idle timeValid latch
      rw [← final] at reconciled
      refine iff_of_true ?_ (.inl rfl)
      rw [status, same, Slots.journal, (reconciled.record record).journal_eq]
      exact reconciled.rebootRule record idle
  | false =>
      obtain ⟨evaluation, same, pass⟩ := exec_idle_unlatched record idle timeValid latch
      rw [← final] at pass
      rw [status, same, Slots.journal, (pass.record record).journal_eq,
        or_iff_right (show ¬ false = true by simp)]
      exact pass.rebootRule_iff record idle

/-- The first tick of the boot `b`, at 1000. -/
def firstTick : RuntimeTickObservation := ⟨true, 1000, 5, [0x62]⟩

/-- Two crossed occurrences, the older beyond the grace: it is missed and the newer rings, by
the rule. -/
theorem reboot_rule_iff_crossed :
    let run := exec (performStore {}) (runRuntimeTick {} firstTick) (firstStore crossedSchedule)
    run.1.1.status = .evaluated ∧
      (Slots.journal run.2).active = some (admittedOccurrence ⟨[0x77], 1, true, 1000⟩ 1000 5) ∧
      RebootRule (scanSlots (firstStore crossedSchedule)).snapshot 1000 run.1.1.status
        (Slots.journal run.2) := by
  have loaded := @scanSlots_firstStore crossedSchedule rfl (by decide +kernel)
  obtain ⟨first, final⟩ := exec_healthy (runRuntimeTick {} firstTick) (firstStore crossedSchedule)
  rw [loaded] at first final
  have follows := @reboot_rule_iff (firstStore crossedSchedule) {} firstTick (by rw [loaded])
    (by rw [loaded]; rfl) rfl
  refine ⟨?_, ?_, follows.mpr (.inr (.inr ?_))⟩
  · rw [first]
    decide +kernel
  · rw [Slots.journal, final]
    decide +kernel
  · rw [loaded]
    have sorted : sortAlarms crossedSchedule.alarms =
        [⟨[0x66], 1, true, 100⟩, ⟨[0x77], 1, true, 1000⟩] := by decide +kernel
    rw [sorted]
    exact ⟨fun _ => ⟨rfl, by decide⟩, fun _ => ⟨by decide, by decide⟩, trivial⟩

/-- Two alarms, which fell due 500 and 100 seconds before the first tick. -/
def crossedPair : ScheduleSnapshot :=
  { revision := 1, timezoneRulesVersion := [0x31]
    alarms := [⟨[0x66], 1, true, 500⟩, ⟨[0x77], 1, true, 900⟩] }

/-- The older of the two rings, and the newer is not journaled. -/
theorem two_crossed_break_reboot_rule :
    let run := exec (performStore {}) (runRuntimeTick {} firstTick) (firstStore crossedPair)
    (scanSlots (firstStore crossedPair)).status = .loaded ∧
      (scanSlots (firstStore crossedPair)).snapshot.occurrenceState.active = none ∧
      isBootPending {} firstTick = true ∧
      ¬ RebootRule (scanSlots (firstStore crossedPair)).snapshot 1000 run.1.1.status
        (Slots.journal run.2) := by
  have loaded := @scanSlots_firstStore crossedPair rfl (by decide +kernel)
  obtain ⟨-, final⟩ := exec_healthy (runRuntimeTick {} firstTick) (firstStore crossedPair)
  rw [loaded] at final
  intro run
  rw [Slots.journal, show scanSlots run.2 = _ from final, loaded]
  refine ⟨rfl, rfl, rfl, fun rule => ?_⟩
  have older := rule.rings ⟨[0x66], 1, true, 500⟩ (by decide) (by decide) (by decide +kernel)
  exact absurd (older.1 ⟨[0x77], 1, true, 900⟩ (by decide) (by decide)) (by decide)

end DawnDock
