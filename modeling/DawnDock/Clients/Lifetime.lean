import DawnDock.Clients.Alerts
import DawnDock.Clients.DuePass
import DawnDock.Clients.History
import DawnDock.Clients.Succeeding

/-!
The lifetime of an occurrence across snoozes and reboots.

A `PowerClock` is what the two clocks of a device show: within a boot they advance
together, a reboot moves the origin of the monotonic one. `Alive` ties the journal to
it: the occurrence's monotonic anchor is the wall second of its first ring, read on the
clock of this boot, or the boot is still to be handled and will anchor it anew.

`lifetime_survives_reboots`: in every run of ticks, snoozes and reboots whose store
operations succeed, the first tick an hour or more behind the first ring makes the
occurrence terminal, and no earlier tick does.
-/

namespace DawnDock

open AtomicProgram

/-! ### Clocks -/

/-- The clocks of a powered device. -/
structure PowerClock where
  bootId : Text
  /-- Wall time minus monotonic time. -/
  offset : ℤ
  /-- The last wall second seen. -/
  wallUtcSeconds : Int64
  /-- The boot ids so far. -/
  used : List Text

/-- The clocks show these times, and wall time has not gone back. -/
structure PowerClock.Shows (clock : PowerClock) (wallUtcSeconds monotonicSeconds : Int64) :
    Prop where
  forward : clock.wallUtcSeconds.toInt ≤ wallUtcSeconds.toInt
  origin : 0 ≤ monotonicSeconds.toInt
  together : wallUtcSeconds.toInt - monotonicSeconds.toInt = clock.offset

/-- What a powered device does. A reboot has a fresh id and may set the monotonic clock to
anything. -/
inductive PowerClock.Step : PowerClock → DeviceOp → PowerClock → Prop where
  | tick {clock : PowerClock} {observation : RuntimeTickObservation}
      (timeValid : observation.timeValid = true) (own : observation.bootId = clock.bootId)
      (shows : clock.Shows observation.wallUtcSeconds observation.monotonicSeconds) :
      Step clock (.tick observation) { clock with wallUtcSeconds := observation.wallUtcSeconds }
  | snooze {clock : PowerClock} {wallUtcSeconds monotonicSeconds : Int64} (occurrenceId : Text)
      (durationSeconds : Int64) (shows : clock.Shows wallUtcSeconds monotonicSeconds) :
      Step clock (.engine (.snooze occurrenceId monotonicSeconds durationSeconds))
        { clock with wallUtcSeconds }
  | reboot {clock : PowerClock} {bootId : Text} (offset : ℤ) (nonempty : bootId ≠ [])
      (fresh : bootId ∉ clock.used) :
      Step clock .reboot ⟨bootId, offset, clock.wallUtcSeconds, bootId :: clock.used⟩

/-- A run of a device with these clocks. -/
inductive PowerClock.Run : PowerClock → List DeviceOp → PowerClock → Prop where
  | nil {clock : PowerClock} : Run clock [] clock
  | cons {clock middle final : PowerClock} {op : DeviceOp} {ops : List DeviceOp}
      (step : clock.Step op middle) (rest : Run middle ops final) : Run clock (op :: ops) final

/-- The clocks of a device that makes the observation in its first boot. -/
def RuntimeTickObservation.clock (observation : RuntimeTickObservation) : PowerClock where
  bootId := observation.bootId
  offset := observation.wallUtcSeconds.toInt - observation.monotonicSeconds.toInt
  wallUtcSeconds := observation.wallUtcSeconds
  used := [observation.bootId]

theorem toInt_lifetime : kOccurrenceLifetimeSeconds.toInt = 3600 := rfl

/-! ### The occurrence -/

/-- The active record of the occurrence `d` that first rang at `firstRing`. -/
structure BegunAt (d : AlarmDefinition) (firstRing : Int64) (used : List Text)
    (active : ActiveOccurrence) : Prop where
  name : active.occurrenceId = makeOccurrenceId d
  alarmId : active.alarmId = d.id
  instant : active.scheduledUtcSeconds = d.scheduledUtcSeconds
  rung : active.firstRingUtcSeconds = firstRing
  recovered : active.lastRecoveryBootId = [] ∨ active.lastRecoveryBootId ∈ used

/-- The first ring, on the monotonic clock of this boot. -/
def Anchored (firstRing : Int64) (offset : ℤ) (active : ActiveOccurrence) : Prop :=
  active.firstRingMonotonicSeconds.toInt = firstRing.toInt - offset

/-- The journal of a boot that has handled the occurrence. -/
def Carries (d : AlarmDefinition) (firstRing : Int64) (clock : PowerClock)
    (journal : PersistentAlarmState) : Prop :=
  ∃ active, journal.active = some active ∧ BegunAt d firstRing clock.used active ∧
    Anchored firstRing clock.offset active

section

variable {d : AlarmDefinition} {firstRing : Int64} {clock : PowerClock}
  {observation : RuntimeTickObservation} {journal : PersistentAlarmState}
  {active : ActiveOccurrence}

/-- The elapsed lifetime is read off either clock. -/
theorem Anchored.elapsed (anchored : Anchored firstRing clock.offset active)
    (shows : clock.Shows observation.wallUtcSeconds observation.monotonicSeconds)
    (begun : firstRing.toInt ≤ clock.wallUtcSeconds.toInt)
    (fits : observation.wallUtcSeconds.toInt - firstRing.toInt < 2 ^ 63) :
    ∃ elapsed, checkedElapsed observation.monotonicSeconds active.firstRingMonotonicSeconds =
      some elapsed ∧ elapsed.toInt = observation.wallUtcSeconds.toInt - firstRing.toInt := by
  have ⟨forward, origin, together⟩ := shows
  have anchor : active.firstRingMonotonicSeconds.toInt = firstRing.toInt - clock.offset := anchored
  obtain ⟨elapsed, known, value⟩ := @checkedElapsed_of_le observation.monotonicSeconds
    active.firstRingMonotonicSeconds (by omega) (by omega)
  exact ⟨elapsed, known, by omega⟩

theorem Anchored.lifetimeOver_iff (anchored : Anchored firstRing clock.offset active)
    (shows : clock.Shows observation.wallUtcSeconds observation.monotonicSeconds)
    (begun : firstRing.toInt ≤ clock.wallUtcSeconds.toInt)
    (fits : observation.wallUtcSeconds.toInt - firstRing.toInt < 2 ^ 63) :
    LifetimeOver active observation.monotonicSeconds ↔
      firstRing.toInt + 3600 ≤ observation.wallUtcSeconds.toInt := by
  obtain ⟨elapsed, known, value⟩ := anchored.elapsed shows begun fits
  simp only [LifetimeOver, known, Option.some.injEq, exists_eq_left']
  rw [Int64.le_iff_toInt_le, toInt_lifetime]
  omega

/-- An advance within the lifetime carries the occurrence on. -/
theorem Carries.advance (carries : Carries d firstRing clock journal)
    (shows : clock.Shows observation.wallUtcSeconds observation.monotonicSeconds)
    (begun : firstRing.toInt ≤ clock.wallUtcSeconds.toInt)
    (early : observation.wallUtcSeconds.toInt < firstRing.toInt + 3600) :
    (advanceActive journal observation.monotonicSeconds).1.status ≠ .invalidTime ∧
      Carries d firstRing clock (advanceActive journal observation.monotonicSeconds).2 := by
  obtain ⟨active, held, begunAt, anchored⟩ := carries
  have lives := mt (anchored.lifetimeOver_iff shows begun (by omega)).mp (by omega)
  have outcome := advanceActive_outcome held observation.monotonicSeconds
  generalize advanceActive journal observation.monotonicSeconds = done at outcome ⊢
  cases outcome with
  | unusable status unknown =>
      obtain ⟨elapsed, known, -⟩ := anchored.elapsed shows begun (by omega)
      rw [known] at unknown
      cases unknown
  | expired usable persists past => exact absurd past lives
  | waits usable => exact ⟨usable, active, held, begunAt, anchored⟩
  | rerung usable =>
      have ⟨name, alarmId, instant, rung, recovered⟩ := begunAt
      exact ⟨usable, _, rfl, ⟨name, alarmId, instant, rung, recovered⟩, anchored⟩

/-- An advance at or behind the end of the lifetime ends the occurrence. -/
theorem Carries.expire (carries : Carries d firstRing clock journal)
    (shows : clock.Shows observation.wallUtcSeconds observation.monotonicSeconds)
    (begun : firstRing.toInt ≤ clock.wallUtcSeconds.toInt)
    (late : firstRing.toInt + 3600 ≤ observation.wallUtcSeconds.toInt)
    (fits : observation.wallUtcSeconds.toInt - firstRing.toInt < 2 ^ 63) :
    ∃ active result, journal.active = some active ∧ BegunAt d firstRing clock.used active ∧
      advanceActive journal observation.monotonicSeconds =
        (result, closeActive journal active .timedOut) ∧
      result.status ≠ .invalidTime ∧ result.persistBeforeEffects = true := by
  obtain ⟨active, held, begunAt, anchored⟩ := carries
  have past := (anchored.lifetimeOver_iff shows begun fits).mpr late
  refine ⟨active, (advanceActive journal observation.monotonicSeconds).1, held, begunAt, ?_⟩
  have outcome := advanceActive_outcome held observation.monotonicSeconds
  generalize advanceActive journal observation.monotonicSeconds = done at outcome ⊢
  cases outcome with
  | unusable status unknown =>
      obtain ⟨elapsed, known, -⟩ := past
      rw [known] at unknown
      cases unknown
  | expired usable persists => exact ⟨rfl, usable, persists⟩
  | waits usable keeps known lives => exact absurd past lives
  | rerung usable persists known lives => exact absurd past lives

/-- The active record that settling a boot resumes. -/
def resumedOccurrence (active : ActiveOccurrence) (observation : RuntimeTickObservation) :
    ActiveOccurrence :=
  { active with
    snoozeDeadlineMonotonicSeconds := none
    recoveredAfterReboot := true
    lastRecoveryBootId := observation.bootId
    firstRingMonotonicSeconds := observation.monotonicSeconds -
      (observation.wallUtcSeconds - active.firstRingUtcSeconds) }

/-- A boot resumes the occurrence within its lifetime, and moves its anchor into the
clock of the boot. -/
theorem BegunAt.resume (begunAt : BegunAt d firstRing clock.used active)
    (held : journal.active = some active) (own : observation.bootId = clock.bootId)
    (used : clock.bootId ∈ clock.used) (fresh : active.lastRecoveryBootId ≠ clock.bootId)
    (shows : clock.Shows observation.wallUtcSeconds observation.monotonicSeconds)
    (begun : firstRing.toInt ≤ clock.wallUtcSeconds.toInt)
    (early : observation.wallUtcSeconds.toInt < firstRing.toInt + 3600) :
    let done := settleTransition journal observation true
    done.1.status ≠ .invalidTime ∧ Carries d firstRing clock (settledJournal journal done) := by
  intro done
  have ⟨forward, origin, together⟩ := shows
  obtain ⟨name, alarmId, instant, rung, -⟩ := begunAt
  obtain ⟨elapsed, known, value⟩ := @checkedElapsed_of_le observation.wallUtcSeconds
    active.firstRingUtcSeconds (by rw [rung]; omega) (by rw [rung]; omega)
  have short : ¬ elapsed ≥ kOccurrenceLifetimeSeconds := by
    rw [ge_iff_le, Int64.le_iff_toInt_le, toInt_lifetime]
    rw [rung] at value
    omega
  have resumed : done =
      ({ status := .ringing, occurrenceId := active.occurrenceId, startAlert := true
         persistBeforeEffects := true, recoveredAfterReboot := true },
        { journal with active := some (resumedOccurrence active observation) }) := by
    change settleTransition journal observation true = _
    simp only [settleTransition, if_true, recoverAfterReboot, held, known, if_neg short,
      beq_eq_false_iff_ne.mpr (own ▸ fresh), Bool.false_eq_true, if_false, reanchorActive,
      Option.map_some]
    rfl
  rw [resumed]
  have now : observation.bootId ∈ clock.used := own ▸ used
  refine ⟨by simp, _, rfl, ⟨name, alarmId, instant, rung, .inr now⟩, ?_⟩
  have gap : (observation.wallUtcSeconds - active.firstRingUtcSeconds).toInt =
      observation.wallUtcSeconds.toInt - firstRing.toInt := by
    rw [rung]
    exact MachineInt.toInt_sub ⟨by omega, by omega⟩
  have bound := observation.monotonicSeconds.toInt_lt
  change (observation.monotonicSeconds -
    (observation.wallUtcSeconds - active.firstRingUtcSeconds)).toInt = _
  rw [MachineInt.toInt_sub ⟨by omega, by omega⟩, gap]
  omega

/-- A boot behind the end of the lifetime ends the occurrence. -/
theorem BegunAt.lapse (begunAt : BegunAt d firstRing clock.used active)
    (held : journal.active = some active) (own : observation.bootId = clock.bootId)
    (fresh : active.lastRecoveryBootId ≠ clock.bootId)
    (late : firstRing.toInt + 3600 ≤ observation.wallUtcSeconds.toInt)
    (fits : observation.wallUtcSeconds.toInt - firstRing.toInt < 2 ^ 63) :
    ∃ result, settleTransition journal observation true =
        (result, closeActive journal active .prolongedPowerOff) ∧
      result.status ≠ .invalidTime ∧ result.persistBeforeEffects = true := by
  have rung := begunAt.rung
  obtain ⟨elapsed, known, value⟩ := @checkedElapsed_of_le observation.wallUtcSeconds
    active.firstRingUtcSeconds (by rw [rung]; omega) (by rw [rung]; omega)
  have past : elapsed ≥ kOccurrenceLifetimeSeconds := by
    rw [ge_iff_le, Int64.le_iff_toInt_le, toInt_lifetime]
    rw [rung] at value
    omega
  refine ⟨{ status := .missed, occurrenceId := active.occurrenceId, persistBeforeEffects := true },
    ?_, by simp, rfl⟩
  simp only [settleTransition, if_true, recoverAfterReboot, held, known, if_pos past,
    beq_eq_false_iff_ne.mpr (own ▸ fresh), Bool.false_eq_true, if_false, reanchorActive]
  rfl

end

/-! ### Carrying it through a boot -/

/-- Whether a boot is still to be handled. -/
def bootUnhandled (coordinator : RuntimeCoordinatorState) (bootId : Text) : Bool :=
  !bootId.isEmpty && coordinator.lastHandledBootId != bootId

theorem isBootPending_eq (coordinator : RuntimeCoordinatorState)
    (observation : RuntimeTickObservation) :
    isBootPending coordinator observation = bootUnhandled coordinator observation.bootId := rfl

/-- The occurrence is active. Its anchor lies on the clock of this boot, or the boot is
still to be handled, and has not recovered it. -/
structure Alive (d : AlarmDefinition) (firstRing : Int64) (clock : PowerClock)
    (coordinator : RuntimeCoordinatorState) (journal : PersistentAlarmState) : Prop where
  begun : firstRing.toInt ≤ clock.wallUtcSeconds.toInt
  used : clock.bootId ∈ clock.used
  handled : bootUnhandled coordinator clock.bootId = false → Carries d firstRing clock journal
  unhandled : bootUnhandled coordinator clock.bootId = true → ∃ active,
    journal.active = some active ∧ BegunAt d firstRing clock.used active ∧
      active.lastRecoveryBootId ≠ clock.bootId

theorem Alive.active {d : AlarmDefinition} {firstRing : Int64} {clock : PowerClock}
    {coordinator : RuntimeCoordinatorState} {journal : PersistentAlarmState}
    (alive : Alive d firstRing clock coordinator journal) :
    ∃ active, journal.active = some active ∧ BegunAt d firstRing clock.used active := by
  cases pending : bootUnhandled coordinator clock.bootId with
  | false =>
      obtain ⟨active, held, begunAt, -⟩ := alive.handled pending
      exact ⟨active, held, begunAt⟩
  | true =>
      obtain ⟨active, held, begunAt, -⟩ := alive.unhandled pending
      exact ⟨active, held, begunAt⟩

/-- The occurrence, which `ended` recorded as terminal, is over for good. -/
structure Over (d : AlarmDefinition) (ended journal : PersistentAlarmState) : Prop where
  closed : Closed journal d.id d.scheduledUtcSeconds
  inactive : ∀ a ∈ journal.active, a.occurrenceId ≠ makeOccurrenceId d
  follows : Follows ended journal

section

variable {d : AlarmDefinition} {firstRing : Int64} {clock : PowerClock}
  {observation : RuntimeTickObservation} {coordinator : RuntimeCoordinatorState}
  {current : Register} {log : StoreLog} {alarms : List StoredAlarmDefinition}
  {state final ended : PersistentAlarmState} {edges : List AlertEdge}

theorem Over.step (past : Over d ended state)
    (step : TickStep alarms observation state edges final) : Over d ended final where
  closed := past.closed.step step
  follows := past.follows.trans step.follows
  inactive a held := by
    cases step with
    | admitted eligible =>
        obtain rfl := Option.some.inj held
        intro same
        obtain ⟨id, -, instant⟩ := makeOccurrenceId_inj same
        have above : atOrBelowWatermark state d.id d.scheduledUtcSeconds = false := by
          rw [← id, ← instant]
          exact eligible.unjournaled.2
        rw [past.closed.watermark] at above
        cases above
    | missed reason eligible =>
        rw [missOccurrence, appendTerminal_active] at held
        exact past.inactive a held
    | timedOut | expired => cases held
    | @rerung active deadline was | @recovered active elapsed anchor was =>
        obtain rfl := Option.some.inj held
        exact past.inactive active was

theorem over_closeActive {active : ActiveOccurrence}
    (begunAt : BegunAt d firstRing clock.used active) (reason : TerminalReason) :
    Over d (closeActive state active reason) (closeActive state active reason) where
  closed := by
    rw [← begunAt.alarmId, ← begunAt.instant]
    exact closed_closeActive reason
  inactive a held := by cases held
  follows := .refl

theorem admitting_carries : Admitting (Carries d firstRing clock) alarms observation where
  due alarm mem state carries := by
    have busy : state.active ≠ none := by
      obtain ⟨active, held, -⟩ := carries
      simp [held]
    rw [evaluateDue_busy busy]
    exact carries
  batch whole distinct accepted carries := by
    obtain ⟨active, held, -⟩ := carries
    rw [accepted.idle] at held
    cases held

/-- A tick within the lifetime. -/
theorem Alive.tick (alive : Alive d firstRing clock coordinator current.journal)
    (timeValid : observation.timeValid = true) (own : observation.bootId = clock.bootId)
    (shows : clock.Shows observation.wallUtcSeconds observation.monotonicSeconds)
    (early : observation.wallUtcSeconds.toInt < firstRing.toInt + 3600) :
    Ensures Confirms (fun out _ after =>
        Alive d firstRing { clock with wallUtcSeconds := observation.wallUtcSeconds } out.2
          after.journal) (runRuntimeTick coordinator observation) log current := by
  have pending := isBootPending_eq coordinator observation
  rw [own] at pending
  have settles : (settleTransition current.journal observation
        (isBootPending coordinator observation)).1.status ≠ .invalidTime ∧
      Carries d firstRing clock (settledJournal current.journal
        (settleTransition current.journal observation
          (isBootPending coordinator observation))) := by
    rw [pending]
    cases unhandled : bootUnhandled coordinator clock.bootId with
    | true =>
        obtain ⟨active, held, begunAt, fresh⟩ := alive.unhandled unhandled
        exact begunAt.resume held own alive.used fresh shows alive.begun early
    | false =>
        obtain ⟨usable, carries⟩ := (alive.handled unhandled).advance shows alive.begun early
        rw [← settledJournal_advanceActive] at carries
        exact ⟨usable, carries⟩
  obtain ⟨usable, carries⟩ := settles
  refine (ensures_runRuntimeTick_confirmed timeValid admitting_carries carries ?_).post ?_
  · intro isPending
    rw [isPending] at carries
    exact (carries.advance shows alive.begun early).2
  rintro out log' after ⟨acts, handles⟩
  have handled := handles usable
  rw [isBootPending_eq, own] at handled
  refine ⟨Int.le_trans alive.begun shows.forward, alive.used, fun _ => acts.holds usable, ?_⟩
  intro unhandled
  rw [handled] at unhandled
  cases unhandled

/-- The lifetime rule made the active occurrence terminal by a call of the log, and it is
over for good: only newer records have come behind its own since. -/
structure LifetimeEnded (occurrenceId : Text) (log : StoreLog)
    (before after : PersistentAlarmState) : Prop where
  written : ∃ active reason, before.active = some active ∧ active.occurrenceId = occurrenceId ∧
    (reason = .timedOut ∨ reason = .prolongedPowerOff) ∧
    Writes log before (closeActive before active reason) ∧
    Recorded (closeActive before active reason) occurrenceId ∧
    Follows (closeActive before active reason) after ∧
    Closed after active.alarmId active.scheduledUtcSeconds
  inactive : ∀ a ∈ after.active, a.occurrenceId ≠ occurrenceId

/-- A tick at or behind the end of the lifetime. -/
theorem Alive.ends (alive : Alive d firstRing clock coordinator current.journal)
    (timeValid : observation.timeValid = true) (own : observation.bootId = clock.bootId)
    (shows : clock.Shows observation.wallUtcSeconds observation.monotonicSeconds)
    (late : firstRing.toInt + 3600 ≤ observation.wallUtcSeconds.toInt)
    (fits : observation.wallUtcSeconds.toInt - firstRing.toInt < 2 ^ 63) :
    Ensures Confirms (fun _ log' after =>
        LifetimeEnded (makeOccurrenceId d) log' current.journal after.journal)
      (runRuntimeTick coordinator observation) log current := by
  have pending := isBootPending_eq coordinator observation
  rw [own] at pending
  have settles : ∃ active result reason, current.journal.active = some active ∧
      BegunAt d firstRing clock.used active ∧ (reason = .timedOut ∨ reason = .prolongedPowerOff) ∧
      settleTransition current.journal observation (isBootPending coordinator observation) =
        (result, closeActive current.journal active reason) ∧
      result.status ≠ .invalidTime ∧ result.persistBeforeEffects = true := by
    rw [pending]
    cases unhandled : bootUnhandled coordinator clock.bootId with
    | true =>
        obtain ⟨active, held, begunAt, fresh⟩ := alive.unhandled unhandled
        obtain ⟨result, lapses⟩ := begunAt.lapse held own fresh late fits
        exact ⟨active, result, _, held, begunAt, .inr rfl, lapses⟩
    | false =>
        obtain ⟨active, result, held, begunAt, expires⟩ :=
          (alive.handled unhandled).expire shows alive.begun late fits
        exact ⟨active, result, _, held, begunAt, .inl rfl, expires⟩
  obtain ⟨active, result, reason, held, begunAt, ends, transition, usable, persists⟩ := settles
  have past : Over d (closeActive current.journal active reason) (settledJournal current.journal
      (settleTransition current.journal observation (isBootPending coordinator observation))) := by
    rw [transition, settledJournal, if_pos persists]
    exact over_closeActive begunAt reason
  have keeps : Admitting (Over d (closeActive current.journal active reason))
      current.snapshot.alarms observation :=
    admitting_of_step rfl fun step past => past.step step
  refine (ensures_runRuntimeTick_confirmed timeValid keeps past ?_).post ?_
  · intro isPending
    rw [isPending] at past
    rcases advanceActive_transition [] (settledJournal current.journal
      (settleTransition current.journal observation true)) observation with ⟨-, -, kept⟩ | ⟨-, step⟩
    · exact kept.symm ▸ past
    · exact past.step step
  rintro out log' after ⟨acts, -⟩
  rw [transition] at acts
  obtain ⟨closed, inactive, follows⟩ := acts.holds usable
  refine ⟨⟨active, reason, held, begunAt.name, ends, acts.writes usable persists, ?_, follows, ?_⟩,
    inactive⟩
  · rw [Recorded, closeActive_terminal, ← begunAt.name]
    exact recorded_appendTerminal_self _ _
  · rwa [begunAt.alarmId, begunAt.instant]

end

/-! ### Runs -/

/-- A snooze changes nothing but the snooze. -/
theorem requestSnooze_active {journal : PersistentAlarmState} {active : ActiveOccurrence}
    (held : journal.active = some active) (occurrenceId : Text)
    (monotonicSeconds durationSeconds : Int64) :
    ∃ count deadline,
      (requestSnooze journal occurrenceId monotonicSeconds durationSeconds).2.active =
        some { active with snoozeCount := count, snoozeDeadlineMonotonicSeconds := deadline } := by
  simp only [requestSnooze, held]
  repeat' split
  · exact ⟨_, _, held⟩
  · exact ⟨_, _, held⟩
  · exact ⟨_, _, held⟩
  · exact ⟨_, _, held⟩
  · exact ⟨_, _, held⟩
  · exact ⟨_, _, held⟩
  · exact ⟨_, _, rfl⟩

section

variable {d : AlarmDefinition} {firstRing : Int64} {clock after : PowerClock}
  {coordinator : RuntimeCoordinatorState} {current : Register} {log : StoreLog}
  {faults : ℕ → StorageFaults} {device : Device} {op : DeviceOp} {ops : List DeviceOp}
  {admission observation : RuntimeTickObservation}

theorem Alive.snooze (alive : Alive d firstRing clock coordinator current.journal)
    {wallUtcSeconds monotonicSeconds : Int64} (occurrenceId : Text) (durationSeconds : Int64)
    (shows : clock.Shows wallUtcSeconds monotonicSeconds) :
    Ensures Confirms (fun _ _ after =>
        Alive d firstRing { clock with wallUtcSeconds } coordinator after.journal)
      (commitEngineCall (.snooze occurrenceId monotonicSeconds durationSeconds)) log current := by
  refine ensures_commitEngineCall_confirmed.post ?_
  rintro edges log' after ⟨loaded, journaled⟩
  have snoozed : ∀ active, current.journal.active = some active → ∃ count deadline,
      after.journal.active =
        some { active with snoozeCount := count, snoozeDeadlineMonotonicSeconds := deadline } := by
    intro active held
    rw [journaled, settledJournal]
    split
    · rw [Register.journal_of_loaded loaded] at held
      exact requestSnooze_active held occurrenceId monotonicSeconds durationSeconds
    · exact ⟨_, _, held⟩
  refine ⟨Int.le_trans alive.begun shows.forward, alive.used, fun handled => ?_,
    fun unhandled => ?_⟩
  · obtain ⟨active, held, ⟨name, alarmId, instant, rung, recovered⟩, anchored⟩ :=
      alive.handled handled
    obtain ⟨count, deadline, holds⟩ := snoozed active held
    exact ⟨_, holds, ⟨name, alarmId, instant, rung, recovered⟩, anchored⟩
  · obtain ⟨active, held, ⟨name, alarmId, instant, rung, recovered⟩, fresh⟩ :=
      alive.unhandled unhandled
    obtain ⟨count, deadline, holds⟩ := snoozed active held
    exact ⟨_, holds, ⟨name, alarmId, instant, rung, recovered⟩, fresh⟩

theorem Alive.reboot {journal : PersistentAlarmState}
    (alive : Alive d firstRing clock coordinator journal) {bootId : Text} (offset : ℤ)
    (nonempty : bootId ≠ []) (fresh : bootId ∉ clock.used) :
    Alive d firstRing ⟨bootId, offset, clock.wallUtcSeconds, bootId :: clock.used⟩ {} journal where
  begun := alive.begun
  used := List.mem_cons_self
  handled handled := by
    simp [bootUnhandled, nonempty, Ne.symm nonempty] at handled
  unhandled _ := by
    obtain ⟨active, held, name, alarmId, instant, rung, recovered⟩ := alive.active
    refine ⟨active, held, ⟨name, alarmId, instant, rung, ?_⟩, ?_⟩
    · exact recovered.imp_right (List.mem_cons_of_mem _)
    · rintro rfl
      rcases recovered with empty | earlier
      · exact nonempty empty
      · exact fresh earlier

theorem Device.mem_history {e : StoreEvent} (mem : e ∈ device.history) :
    e ∈ (device.run faults ops).history := by
  refine Device.run_induction (motive := fun device => e ∈ device.history) mem ?_
  intro device op _ mem
  exact List.mem_append_left _ mem

/-- What an operation ensures if its calls succeed. -/
theorem Device.step_confirmed
    {post : Outcome × RuntimeCoordinatorState → StoreLog → Register → Prop}
    (h : Ensures Confirms post (op.program device.coordinator) [] device.current)
    (succeeded : ∀ e ∈ device.calls faults op, Succeeded e) :
    post (device.result faults op).1 (device.calls faults op) (device.step faults op).current :=
  exec_ensures_confirmed (s := (device.operations, device.slots)) h succeeded

theorem Alive.step (alive : Alive d firstRing clock device.coordinator device.current.journal)
    (step : clock.Step op after)
    (early : ∀ observation, op = .tick observation →
      observation.wallUtcSeconds.toInt < firstRing.toInt + 3600)
    (succeeded : ∀ e ∈ device.calls faults op, Succeeded e) :
    Alive d firstRing after (device.step faults op).coordinator
      (device.step faults op).current.journal := by
  cases step with
  | tick timeValid own shows =>
      have carries : Ensures Confirms (fun done _ final => Alive d firstRing _ done.2 final.journal)
          (DeviceOp.program device.coordinator (.tick _)) [] device.current :=
        (alive.tick timeValid own shows (early _ rfl)).bind fun _ _ _ carried => carried
      exact Device.step_confirmed carries succeeded
  | snooze occurrenceId durationSeconds shows =>
      have carries : Ensures Confirms (fun done _ final => Alive d firstRing _ done.2 final.journal)
          (DeviceOp.program device.coordinator (.engine _)) [] device.current :=
        (alive.snooze occurrenceId durationSeconds shows).bind fun _ _ _ carried => carried
      exact Device.step_confirmed carries succeeded
  | reboot offset nonempty fresh => exact alive.reboot offset nonempty fresh

theorem Alive.run (alive : Alive d firstRing clock device.coordinator device.current.journal)
    (run : clock.Run ops after)
    (early : ∀ observation, .tick observation ∈ ops →
      observation.wallUtcSeconds.toInt < firstRing.toInt + 3600)
    (succeeded : ∀ e ∈ (device.run faults ops).history, Succeeded e) :
    Alive d firstRing after (device.run faults ops).coordinator
      (device.run faults ops).current.journal := by
  induction run generalizing device with
  | nil => exact alive
  | @cons clock middle final op ops step rest ih =>
      have first : ∀ e ∈ device.calls faults op, Succeeded e := by
        intro e mem
        have recorded : e ∈ (device.step faults op).history := List.mem_append_right _ mem
        have kept : e ∈ ((device.step faults op).run faults ops).history :=
          Device.mem_history recorded
        exact succeeded e kept
      have carried := alive.step step
        (fun observation same => early observation (same ▸ List.mem_cons_self)) first
      exact ih carried (fun observation mem => early observation (List.mem_cons_of_mem _ mem))
        succeeded

theorem Alive.lastTick (alive : Alive d firstRing clock device.coordinator device.current.journal)
    (step : clock.Step (.tick observation) after)
    (late : firstRing.toInt + 3600 ≤ observation.wallUtcSeconds.toInt)
    (fits : observation.wallUtcSeconds.toInt - firstRing.toInt < 2 ^ 63)
    (succeeded : ∀ e ∈ device.calls faults (.tick observation), Succeeded e) :
    LifetimeEnded (makeOccurrenceId d) (device.calls faults (.tick observation))
      device.current.journal (device.step faults (.tick observation)).current.journal := by
  cases step with
  | tick timeValid own shows =>
      have ends : Ensures Confirms (fun _ log' final => LifetimeEnded (makeOccurrenceId d) log'
          device.current.journal final.journal)
          ((DeviceOp.tick observation).program device.coordinator) [] device.current :=
        (alive.ends timeValid own shows late fits).bind fun _ _ _ ends => ends
      exact Device.step_confirmed ends succeeded

/-! ### Admission -/

/-- The occurrence, if it is active, was just admitted. -/
def JustAdmitted (occurrenceId : Text) (admission : RuntimeTickObservation)
    (journal : PersistentAlarmState) : Prop :=
  ∀ a ∈ journal.active, a.occurrenceId = occurrenceId → ∃ alarm : StoredAlarmDefinition,
    a = admittedOccurrence alarm admission.wallUtcSeconds admission.monotonicSeconds

theorem admitting_justAdmitted {occurrenceId : Text} {alarms : List StoredAlarmDefinition} :
    Admitting (JustAdmitted occurrenceId admission) alarms admission := by
  refine admitting_of_step rfl ?_
  intro state final edges step just a held same
  cases step with
  | admitted eligible =>
      obtain rfl := Option.some.inj held
      exact ⟨_, rfl⟩
  | missed reason eligible =>
      rw [missOccurrence, appendTerminal_active] at held
      exact just a held same
  | timedOut | expired => cases held
  | rerung was lives snoozed =>
      obtain rfl := Option.some.inj held
      obtain ⟨alarm, rfl⟩ := just _ was same
      cases snoozed
  | recovered was boot => exact absurd rfl boot

theorem alive_of_admission {occurrenceId : Text} (timeValid : admission.timeValid = true)
    (new : ∀ a ∈ device.current.journal.active, a.occurrenceId ≠ occurrenceId)
    (admitted : ∃ a ∈ (device.step faults (.tick admission)).current.journal.active,
      a.occurrenceId = occurrenceId)
    (succeeded : ∀ e ∈ device.calls faults (.tick admission), Succeeded e) :
    ∃ d, makeOccurrenceId d = occurrenceId ∧
      Alive d admission.wallUtcSeconds admission.clock
        (device.step faults (.tick admission)).coordinator
        (device.step faults (.tick admission)).current.journal := by
  -- Settling names no new occurrence.
  have stage (bootPending : Bool) (boot : bootPending = true → admission.bootId ≠ []) :
      ∀ a ∈ (settledJournal device.current.journal
        (settleTransition device.current.journal admission bootPending)).active,
        a.occurrenceId ≠ occurrenceId := by
    intro a held
    rw [settledJournal] at held
    split at held
    · rename_i persists
      rcases settleTransition_transition [] device.current.journal boot with ⟨quiet, -⟩ | ⟨-, step⟩
      · rw [persists] at quiet
        cases quiet
      · obtain ⟨b, was, same⟩ := step.stageLeaves.active a held
        exact same ▸ new b was
    · exact new a held
  have boot : isBootPending device.coordinator admission = true → admission.bootId ≠ [] :=
    fun pending => (isBootPending_iff.mp pending).1
  have ticked : Ensures Confirms (fun done log after =>
      Acts (JustAdmitted occurrenceId admission) device.current.journal
          (settleTransition device.current.journal admission
            (isBootPending device.coordinator admission)) log after ∧
        ((settleTransition device.current.journal admission
          (isBootPending device.coordinator admission)).1.status ≠ .invalidTime →
          isBootPending done.2 admission = false))
      ((DeviceOp.tick admission).program device.coordinator) [] device.current := by
    refine (ensures_runRuntimeTick_confirmed timeValid admitting_justAdmitted
      (fun a held same => absurd same (stage _ boot a held)) ?_).bind fun _ _ _ ends => ends
    intro pending a held same
    have quiet := stage true fun _ => boot pending
    rcases advanceActive_transition [] (settledJournal device.current.journal
      (settleTransition device.current.journal admission true)) admission with
      ⟨-, -, kept⟩ | ⟨-, step⟩
    · rw [kept] at held
      exact absurd same (quiet a held)
    · obtain ⟨b, was, named⟩ := step.stageLeaves.active a held
      exact absurd (named.trans same) (quiet b was)
  obtain ⟨acts, handles⟩ := Device.step_confirmed ticked succeeded
  obtain ⟨active, held, name⟩ := admitted
  have usable : (settleTransition device.current.journal admission
      (isBootPending device.coordinator admission)).1.status ≠ .invalidTime := by
    intro unusable
    rw [acts.frozen unusable] at held
    exact new active held name
  obtain ⟨alarm, rfl⟩ := acts.holds usable active held name
  have handled := handles usable
  refine ⟨alarm.definition, name, Int.le_refl _, List.mem_singleton_self _, fun _ => ?_, ?_⟩
  · refine ⟨_, held, ⟨rfl, rfl, rfl, rfl, .inl rfl⟩, ?_⟩
    simp only [Anchored, RuntimeTickObservation.clock, admittedOccurrence]
    omega
  · intro unhandled
    rw [isBootPending_eq] at handled
    exact absurd (handled.symm.trans unhandled) (by simp)

end

/-! ### The lifetime -/

theorem snoozeCount_le (device : Device) :
    ∀ a ∈ device.current.journal.active, a.snoozeCount ≤ kMaximumSnoozes := by
  intro a held
  by_cases loaded : device.current.status = .loaded
  · rw [Register.journal_of_loaded loaded] at held
    have valid := (validRecord_scanSlots loaded).journal.active a held
    simp only [validActive, Bool.and_eq_true, decide_eq_true_eq] at valid
    exact valid.1.2
  · rw [Register.journal, if_neg loaded] at held
    cases held

/-- Whatever the store held, for every occurrence that a valid tick admits, and every run
behind it whose store operations succeed: the occurrence never has more than six snoozes; it
stays active as long as no tick comes an hour behind the admission; and the first one that
does makes it terminal. -/
theorem lifetime_survives_reboots {slots : Slots} {coordinator : RuntimeCoordinatorState}
    {faults : ℕ → StorageFaults} {admission : RuntimeTickObservation} {occurrenceId : Text}
    {ops : List DeviceOp} {clock : PowerClock} (timeValid : admission.timeValid = true)
    (new : ∀ a ∈ slots.journal.active, a.occurrenceId ≠ occurrenceId)
    (admitted : ∃ a ∈
      (Device.step faults { slots, coordinator } (.tick admission)).current.journal.active,
      a.occurrenceId = occurrenceId)
    (run : admission.clock.Run ops clock)
    (succeeded : ∀ e ∈ (Device.run faults { slots, coordinator } (.tick admission :: ops)).history,
      Succeeded e) :
    let firstRing := admission.wallUtcSeconds.toInt
    let device := Device.run faults { slots, coordinator } (.tick admission :: ops)
    (∀ a ∈ device.current.journal.active, a.snoozeCount ≤ kMaximumSnoozes) ∧
      ((∀ earlier, .tick earlier ∈ ops → earlier.wallUtcSeconds.toInt < firstRing + 3600) →
        (∃ a ∈ device.current.journal.active, a.occurrenceId = occurrenceId) ∧
        ∀ observation after, clock.Step (.tick observation) after →
          firstRing + 3600 ≤ observation.wallUtcSeconds.toInt →
          observation.wallUtcSeconds.toInt - firstRing < 2 ^ 63 →
          (∀ e ∈ device.calls faults (.tick observation), Succeeded e) →
          LifetimeEnded occurrenceId (device.calls faults (.tick observation))
            device.current.journal
            (device.step faults (.tick observation)).current.journal) := by
  intro firstRing device
  refine ⟨snoozeCount_le device, fun early => ?_⟩
  have first : ∀ e ∈ Device.calls faults { slots, coordinator } (.tick admission), Succeeded e := by
    intro e mem
    have recorded : e ∈ (Device.step faults { slots, coordinator } (.tick admission)).history :=
      List.mem_append_right _ mem
    have kept : e ∈ ((Device.step faults { slots, coordinator } (.tick admission)).run faults
        ops).history := Device.mem_history recorded
    exact succeeded e kept
  obtain ⟨d, rfl, alive⟩ := @alive_of_admission faults { slots, coordinator } admission _ timeValid
    new admitted first
  have carried := alive.run run early succeeded
  constructor
  · obtain ⟨active, held, begunAt⟩ := carried.active
    exact ⟨active, held, begunAt.name⟩
  · intro observation after step late fits success
    exact carried.lastTick step late fits success

/-- Ring, snooze, restart: the occurrence of `w` ends an hour behind its first ring. -/
theorem lifetime_survives_reboots_restart :
    let w : Text := [0x77, 0x3a, 0x31, 0x3a, 0x31, 0x30, 0x30, 0x30]
    let device := Device.run healthy { slots := oneAlarmStore }
      [.tick ⟨true, 1000, 5, [0x31]⟩, .engine (.snooze w 15 60), .reboot,
        .tick ⟨true, 1100, 3, [0x32]⟩]
    let last : DeviceOp := .tick ⟨true, 4600, 3503, [0x32]⟩
    LifetimeEnded w (device.calls healthy last) device.current.journal
      (device.step healthy last).current.journal := by
  intro w device last
  have start : Device.view { slots := oneAlarmStore } =
      { current := { status := .loaded, snapshot := oneAlarmSchedule, generation := 1 } } := by
    rw [Device.view, Device.current, scanSlots_oneAlarmStore]
  have ring : (Device.step healthy { slots := oneAlarmStore }
      (.tick ⟨true, 1000, 5, [0x31]⟩)).view = _ := Device.step_view healthy _ _
  have reached : device.view = _ := Device.run_view healthy _ _
  have ended : (device.step healthy last).view = _ := Device.step_view healthy device last
  rw [start] at ring reached
  rw [reached] at ended
  have run : PowerClock.Run (RuntimeTickObservation.clock ⟨true, 1000, 5, [0x31]⟩)
      [.engine (.snooze w 15 60), .reboot, .tick ⟨true, 1100, 3, [0x32]⟩]
      ⟨[0x32], 1097, 1100, [[0x32], [0x31]]⟩ := by
    refine .cons (@PowerClock.Step.snooze _ 1010 15 w 60 ⟨by decide, by decide, by decide⟩) ?_
    refine .cons (@PowerClock.Step.reboot _ [0x32] 1097 (by decide) (by decide)) ?_
    exact .cons (.tick rfl rfl ⟨by decide, by decide, by decide⟩) .nil
  have history : ∀ e ∈ (device.step healthy last).history, Succeeded e := by
    rw [← Device.view_history, ended]
    decide +kernel
  refine ((lifetime_survives_reboots rfl ?_ ?_ run ?_).2 ?_).2 ⟨true, 4600, 3503, [0x32]⟩ _
    (.tick rfl rfl ⟨by decide, by decide, by decide⟩) (by decide) (by decide) ?_
  · rw [journal_oneAlarmStore]
    simp
  · rw [← Device.view_current, ring]
    decide +kernel
  · intro e mem
    exact history e (List.mem_append_left _ mem)
  · intro earlier mem
    simp only [List.mem_cons, reduceCtorEq, List.not_mem_nil, or_false, false_or,
      DeviceOp.tick.injEq] at mem
    rw [mem]
    decide
  · intro e mem
    exact history e (List.mem_append_right _ mem)

end DawnDock
