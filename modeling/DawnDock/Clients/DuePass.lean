import DawnDock.Clients.RepeatedReconciliation

/-!
A completed evaluation, over healthy storage.

* `DuePass.complete`: every due occurrence ends journaled, at or below its alarm's
  watermark, or reported as a conflict; or the journal held its record and newer ones
  filled the list.
* `DuePass.fresh`: what is journaled for the first time was enabled and due; it is
  missed beyond the grace and rings within it.
* `due_pass_classifies`: every completed evaluation is such a pass, whatever order the
  alarms are stored in.
* `evicted_record_is_not_accounted`: a due occurrence that the journal loses.
-/

namespace DawnDock

open AtomicProgram

/-! ### What a pass keeps -/

/-- What the due pass keeps of a journal. -/
structure Retains (before after : PersistentAlarmState) : Prop where
  active : ∀ a ∈ before.active, a ∈ after.active
  watermark : ∀ {alarmId instant}, atOrBelowWatermark before alarmId instant = true →
    atOrBelowWatermark after alarmId instant = true
  full : ∀ {alarmId}, canTrackTerminal before alarmId = false →
    canTrackTerminal after alarmId = false
  record : ∀ {occurrenceId}, isTerminal before occurrenceId = true →
    isTerminal after occurrenceId = true ∨ kRecentTerminalRetention ≤ after.terminal.length
  retained : kRecentTerminalRetention ≤ before.terminal.length →
    kRecentTerminalRetention ≤ after.terminal.length

theorem Retains.refl (journal : PersistentAlarmState) : Retains journal journal :=
  ⟨fun _ held => held, id, id, .inl, id⟩

theorem Retains.trans {before middle after : PersistentAlarmState} (first : Retains before middle)
    (second : Retains middle after) : Retains before after where
  active a held := second.active a (first.active a held)
  watermark below := second.watermark (first.watermark below)
  full none := second.full (first.full none)
  record recorded := by
    rcases first.record recorded with recorded | many
    · exact second.record recorded
    · exact .inr (second.retained many)
  retained many := second.retained (first.retained many)

theorem length_appendTerminal {state : PersistentAlarmState} (occurrence : TerminalOccurrence)
    (many : kRecentTerminalRetention ≤ state.terminal.length) :
    kRecentTerminalRetention ≤ (appendTerminal state occurrence).terminal.length := by
  unfold appendTerminal
  split
  · exact many
  · rw [List.length_drop, List.length_append, List.length_singleton]
    omega

/-- A record stays unless newer ones fill the list. -/
theorem record_appendTerminal {state : PersistentAlarmState} {occurrenceId : Text}
    {occurrence : TerminalOccurrence} (recorded : Recorded state occurrenceId) :
    Recorded (appendTerminal state occurrence) occurrenceId ∨
      kRecentTerminalRetention ≤ (appendTerminal state occurrence).terminal.length := by
  by_cases many : kRecentTerminalRetention ≤ state.terminal.length
  · exact .inr (length_appendTerminal occurrence many)
  left
  unfold appendTerminal
  split
  · exact recorded
  have whole : (state.terminal ++ [occurrence]).length - kRecentTerminalRetention = 0 := by
    rw [List.length_append, List.length_singleton]
    omega
  dsimp only [Recorded]
  rw [whole, List.drop_zero, List.map_append]
  exact List.mem_append_left _ recorded

section

variable {wallUtcSeconds monotonicSeconds : Int64} {state : PersistentAlarmState}
  {alarm : StoredAlarmDefinition} {done : EvaluationResult × PersistentAlarmState}

/-- A full table stays full: a miss raises an entry it has. -/
theorem canTrackTerminal_miss {alarmId : Text} (reason : TerminalReason)
    (room : canTrackTerminal state alarm.id = true) (full : canTrackTerminal state alarmId = false) :
    canTrackTerminal (missOccurrence state alarm reason) alarmId = false := by
  rw [← Bool.not_eq_true, canTrackTerminal_iff, not_or] at full
  obtain ⟨absent, many⟩ := full
  have known := (canTrackTerminal_iff.mp room).resolve_right many
  have ids := raiseHighWatermark_ids alarm.id alarm.scheduledUtcSeconds
    state.terminalHighWatermarks
  rw [if_pos known] at ids
  have same : (raiseHighWatermark alarm.id alarm.scheduledUtcSeconds
      state.terminalHighWatermarks).length = state.terminalHighWatermarks.length := by
    have lengths := congrArg List.length ids
    rwa [List.length_map, List.length_map] at lengths
  rw [← Bool.not_eq_true, canTrackTerminal_iff, not_or, missOccurrence, appendTerminal_watermarks]
  constructor
  · change alarmId ∉ (raiseHighWatermark _ _ _).map (·.alarmId)
    rwa [ids]
  · change ¬ (raiseHighWatermark _ _ _).length < _
    rwa [same]

theorem retains_miss (idle : state.active = none) (room : canTrackTerminal state alarm.id = true)
    (reason : TerminalReason) : Retains state (missOccurrence state alarm reason) where
  active a held := by
    rw [idle] at held
    cases held
  watermark := atOrBelowWatermark_record
  full := canTrackTerminal_miss reason room
  record recorded := by
    rw [isTerminal_iff] at recorded ⊢
    exact record_appendTerminal recorded
  retained many := length_appendTerminal _ many

theorem retains_admit (idle : state.active = none) (active : ActiveOccurrence) :
    Retains state { state with active := some active } where
  active a held := by
    rw [idle] at held
    cases held
  watermark := id
  full := id
  record := .inl
  retained := id

theorem DueOutcome.retains (outcome : DueOutcome wallUtcSeconds monotonicSeconds state alarm done) :
    Retains state done.2 := by
  cases outcome with
  | quiet | unusable => exact .refl state
  | missed _ _ _ idle _ room => exact retains_miss idle room _
  | admitted _ _ _ _ idle => exact retains_admit idle _

end

section

variable {wallUtcSeconds monotonicSeconds : Int64} {current : Register}
  {evaluation : CommittedScheduleEvaluation} {alarms : List StoredAlarmDefinition}
  {final : CommittedScheduleEvaluation × Register}

theorem HealthyPass.retains
    (pass : HealthyPass wallUtcSeconds monotonicSeconds alarms current evaluation final) :
    Retains current.snapshot.occurrenceState final.2.snapshot.occurrenceState := by
  induction pass with
  | done | unusable | refused => exact .refl _
  | quiet _ _ _ _ ih => exact ih
  | stored decided _ _ _ _ _ ih => exact (decided_outcome decided).retains.trans ih

/-- The entries so far are a front of the final ones. -/
theorem HealthyPass.mem_entries {entry : CommittedAlarmEvaluation}
    (pass : HealthyPass wallUtcSeconds monotonicSeconds alarms current evaluation final)
    (mem : entry ∈ evaluation.alarms) : entry ∈ final.1.alarms := by
  induction pass with
  | done => exact mem
  | unusable | refused => exact List.mem_append_left _ mem
  | quiet _ _ _ _ ih | stored _ _ _ _ _ _ ih => exact ih (List.mem_append_left _ mem)

end

/-! ### Completeness -/

/-- The evaluation reports the status for the alarm's due occurrence. -/
def ReportsDue (evaluation : CommittedScheduleEvaluation) (alarm : StoredAlarmDefinition)
    (status : EvaluationStatus) : Prop :=
  ∃ entry ∈ evaluation.alarms, entry.alarmId = alarm.id ∧ entry.fromActiveOccurrence = false ∧
    entry.result.status = status ∧ entry.result.startAlert = decide (status = .ringing)

section

variable {wallUtcSeconds monotonicSeconds : Int64} {current : Register}
  {evaluation : CommittedScheduleEvaluation} {alarm : StoredAlarmDefinition}
  {alarms : List StoredAlarmDefinition} {final : CommittedScheduleEvaluation × Register}
  {before after : PersistentAlarmState}

theorem Retains.accounted (keeps : Retains before after) (accounted : Accounted before alarm) :
    Accounted after alarm ∨ (isTerminal before (makeOccurrenceId alarm.definition) = true ∧
      kRecentTerminalRetention ≤ after.terminal.length) := by
  rcases accounted with ⟨a, held, same⟩ | recorded | below
  · exact .inl (.inl ⟨a, keeps.active a held, same⟩)
  · rcases keeps.record recorded with still | many
    · exact .inl (.inr (.inl still))
    · exact .inr ⟨recorded, many⟩
  · exact .inl (.inr (.inr (keeps.watermark below)))

theorem Retains.blocked (keeps : Retains before after) (blocked : Blocked before alarm) :
    Blocked after alarm := by
  rcases blocked with ⟨a, held, differs⟩ | full
  · exact .inl ⟨a, keeps.active a held, differs⟩
  · exact .inr (keeps.full full)

/-- The alert starts with an admission, and with nothing else. -/
theorem evaluateDue_starts {state : PersistentAlarmState}
    {done : EvaluationResult × PersistentAlarmState}
    (decided : evaluateDue alarm.definition state wallUtcSeconds monotonicSeconds true = done) :
    done.1.startAlert = decide (done.1.status = .ringing) := by
  subst decided
  simp only [evaluateDue]
  split
  · rfl
  split
  · rfl
  split
  · rfl
  split
  · rfl
  split
  · rfl
  split
  · rfl
  split
  · rfl
  · split <;> rfl

/-- What a step journals is accounted for. -/
theorem DueOutcome.accounted {state : PersistentAlarmState}
    {done : EvaluationResult × PersistentAlarmState}
    (outcome : DueOutcome wallUtcSeconds monotonicSeconds state alarm done)
    (persists : done.1.persistBeforeEffects = true) :
    (∃ a ∈ done.2.active, a.occurrenceId = makeOccurrenceId alarm.definition) ∨
      atOrBelowWatermark done.2 alarm.id alarm.scheduledUtcSeconds = true := by
  obtain ⟨-, lateness, -, ⟨-, -, journaled⟩ | ⟨-, -, journaled⟩⟩ := outcome.journals persists
  · rw [journaled]
    exact .inr (atOrBelowWatermark_record_self _ _ _ _)
  · rw [journaled]
    exact .inl ⟨_, rfl, rfl⟩

/-- What a step records is the alarm's own occurrence. -/
theorem DueOutcome.recorded {state : PersistentAlarmState} {occurrenceId : Text}
    {done : EvaluationResult × PersistentAlarmState}
    (outcome : DueOutcome wallUtcSeconds monotonicSeconds state alarm done)
    (recorded : isTerminal done.2 occurrenceId = true) :
    isTerminal state occurrenceId = true ∨ occurrenceId = makeOccurrenceId alarm.definition := by
  cases outcome with
  | quiet | unusable | admitted => exact .inl recorded
  | missed =>
      obtain ⟨t, mem, rfl⟩ := List.mem_map.mp (isTerminal_iff.mp recorded)
      rcases mem_appendTerminal mem with old | rfl
      · exact .inl (isTerminal_iff.mpr (List.mem_map_of_mem old))
      · exact .inr rfl

/-- A pass that comes to its end forgets no due alarm. -/
theorem HealthyPass.complete
    (pass : HealthyPass wallUtcSeconds monotonicSeconds alarms current evaluation final)
    (ends : final.1.status = .evaluated) (distinct : (alarms.map (·.id)).Nodup) :
    ∀ alarm ∈ alarms, alarm.enabled = true → alarm.scheduledUtcSeconds ≤ wallUtcSeconds →
      Accounted final.2.snapshot.occurrenceState alarm ∨
        (ReportsDue final.1 alarm .conflict ∧ Blocked final.2.snapshot.occurrenceState alarm) ∨
        (isTerminal current.snapshot.occurrenceState (makeOccurrenceId alarm.definition) = true ∧
          kRecentTerminalRetention ≤ final.2.snapshot.occurrenceState.terminal.length) := by
  induction pass with
  | done => simp
  | unusable | refused => cases ends
  | @quiet _ _ first _ result _ decided usable keeps later ih =>
      obtain ⟨-, distinct⟩ := List.nodup_cons.mp distinct
      intro alarm mem enabled due
      rcases List.mem_cons.mp mem with rfl | mem
      swap
      · exact ih ends distinct alarm mem enabled due
      rcases evaluateDue_quiet enabled due decided keeps usable with accounted | ⟨conflict, blocked⟩
      · rcases later.retains.accounted accounted with accounted | evicted
        · exact .inl accounted
        · exact .inr (.inr evicted)
      · refine .inr (.inl ⟨⟨_, later.mem_entries (List.mem_append_right _ List.mem_cons_self), rfl,
          rfl, conflict, ?_⟩, later.retains.blocked blocked⟩)
        have starts : result.startAlert = decide (result.status = .ringing) :=
          evaluateDue_starts decided
        have conflict : result.status = .conflict := conflict
        rwa [conflict] at starts
  | @stored _ _ first _ result _ _ decided usable persists valid room later ih =>
      obtain ⟨notAgain, distinct⟩ := List.nodup_cons.mp distinct
      have outcome := decided_outcome decided
      intro alarm mem enabled due
      rcases List.mem_cons.mp mem with rfl | mem
      · left
        rcases outcome.accounted persists with ⟨a, held, same⟩ | below
        · exact .inl ⟨a, later.retains.active a held, same⟩
        · exact .inr (.inr (later.retains.watermark below))
      rcases ih ends distinct alarm mem enabled due with accounted | conflict | ⟨recorded, many⟩
      · exact .inl accounted
      · exact .inr (.inl conflict)
      · rcases outcome.recorded recorded with recorded | same
        · exact .inr (.inr ⟨recorded, many⟩)
        · have id : alarm.id = first.id := (makeOccurrenceId_inj same).1
          exact absurd (List.mem_map.mpr ⟨alarm, mem, id⟩) notAgain

end

/-! ### What is new -/

/-- The pass records and reports a miss. -/
def Misses (evaluation : CommittedScheduleEvaluation) (journal : PersistentAlarmState)
    (alarm : StoredAlarmDefinition) : Prop :=
  ReportsDue evaluation alarm .missed ∧
    ⟨makeOccurrenceId alarm.definition, .forwardJump⟩ ∈ journal.terminal

/-- The pass makes the occurrence active and starts its alert. -/
def Rings (wallUtcSeconds monotonicSeconds : Int64) (evaluation : CommittedScheduleEvaluation)
    (journal : PersistentAlarmState) (alarm : StoredAlarmDefinition) : Prop :=
  ReportsDue evaluation alarm .ringing ∧
    journal.active = some (admittedOccurrence alarm wallUtcSeconds monotonicSeconds)

/-- How a pass journals an occurrence of its alarms. -/
structure Fresh (alarms : List StoredAlarmDefinition) (wallUtcSeconds monotonicSeconds : Int64)
    (evaluation : CommittedScheduleEvaluation) (journal : PersistentAlarmState)
    (alarm : StoredAlarmDefinition) : Prop where
  mem : alarm ∈ alarms
  enabled : alarm.enabled = true
  due : alarm.scheduledUtcSeconds ≤ wallUtcSeconds
  classified : ∃ lateness, checkedElapsed wallUtcSeconds alarm.scheduledUtcSeconds = some lateness ∧
    ((kLateGraceSeconds < lateness ∧ Misses evaluation journal alarm) ∨
      (lateness ≤ kLateGraceSeconds ∧
        Rings wallUtcSeconds monotonicSeconds evaluation journal alarm))

section

variable {wallUtcSeconds monotonicSeconds : Int64} {current : Register}
  {evaluation : CommittedScheduleEvaluation} {alarm : StoredAlarmDefinition}
  {alarms rest : List StoredAlarmDefinition} {final : CommittedScheduleEvaluation × Register}
  {journal : PersistentAlarmState}

theorem Fresh.tail {other : StoredAlarmDefinition}
    (fresh : Fresh rest wallUtcSeconds monotonicSeconds evaluation journal alarm) :
    Fresh (other :: rest) wallUtcSeconds monotonicSeconds evaluation journal alarm :=
  { fresh with mem := List.mem_cons_of_mem _ fresh.mem }

/-- Every terminal record is old, or of a fresh miss. -/
theorem HealthyPass.terminal_origin
    (pass : HealthyPass wallUtcSeconds monotonicSeconds alarms current evaluation final)
    {t : TerminalOccurrence} (mem : t ∈ final.2.snapshot.occurrenceState.terminal) :
    t ∈ current.snapshot.occurrenceState.terminal ∨
      ∃ alarm, makeOccurrenceId alarm.definition = t.occurrenceId ∧
        Fresh alarms wallUtcSeconds monotonicSeconds final.1
          final.2.snapshot.occurrenceState alarm := by
  induction pass with
  | done | unusable | refused => exact .inl mem
  | quiet _ _ _ _ ih =>
      rcases ih mem with old | ⟨alarm, same, fresh⟩
      · exact .inl old
      · exact .inr ⟨alarm, same, fresh.tail⟩
  | @stored _ _ first _ result journal _ decided usable persists valid room later ih =>
      rcases ih mem with old | ⟨alarm, same, fresh⟩
      swap
      · exact .inr ⟨alarm, same, fresh.tail⟩
      have old : t ∈ journal.terminal := old
      obtain ⟨enabled, due, -⟩ := crossedNow_iff.mp
        ((decided_outcome decided).crossed (.inr persists)).2
      obtain ⟨-, lateness, elapsed, ⟨late, status, journaled⟩ | ⟨-, -, journaled⟩⟩ :=
        (decided_outcome decided).journals persists
      · obtain rfl : journal = missOccurrence _ first .forwardJump := journaled
        rcases mem_appendTerminal old with old | rfl
        · exact .inl old
        refine .inr ⟨first, rfl, List.mem_cons_self, enabled, due, lateness, elapsed,
          .inl ⟨late, ?_, mem⟩⟩
        have starts := evaluateDue_starts decided
        rw [status] at starts
        exact ⟨_, later.mem_entries (List.mem_append_right _ List.mem_cons_self), rfl, rfl, status,
          starts⟩
      · obtain rfl := journaled
        exact .inl old

/-- The active occurrence is the old one, or rings freshly. -/
theorem HealthyPass.active_origin
    (pass : HealthyPass wallUtcSeconds monotonicSeconds alarms current evaluation final)
    {a : ActiveOccurrence} (held : a ∈ final.2.snapshot.occurrenceState.active) :
    a ∈ current.snapshot.occurrenceState.active ∨
      ∃ alarm, makeOccurrenceId alarm.definition = a.occurrenceId ∧
        Fresh alarms wallUtcSeconds monotonicSeconds final.1
          final.2.snapshot.occurrenceState alarm := by
  induction pass with
  | done | unusable | refused => exact .inl held
  | quiet _ _ _ _ ih =>
      rcases ih held with old | ⟨alarm, same, fresh⟩
      · exact .inl old
      · exact .inr ⟨alarm, same, fresh.tail⟩
  | @stored _ _ first _ result journal _ decided usable persists valid room later ih =>
      rcases ih held with old | ⟨alarm, same, fresh⟩
      swap
      · exact .inr ⟨alarm, same, fresh.tail⟩
      have old : a ∈ journal.active := old
      obtain ⟨enabled, due, -⟩ := crossedNow_iff.mp
        ((decided_outcome decided).crossed (.inr persists)).2
      obtain ⟨-, lateness, elapsed, ⟨-, -, journaled⟩ | ⟨grace, status, journaled⟩⟩ :=
        (decided_outcome decided).journals persists
      · obtain rfl : journal = missOccurrence _ first .forwardJump := journaled
        rw [missOccurrence, appendTerminal_active] at old
        exact .inl old
      · obtain rfl := journaled
        obtain rfl := Option.some.inj old
        refine .inr ⟨first, rfl, List.mem_cons_self, enabled, due, lateness, elapsed,
          .inr ⟨grace, ?_, held⟩⟩
        have starts := evaluateDue_starts decided
        rw [status] at starts
        exact ⟨_, later.mem_entries (List.mem_append_right _ List.mem_cons_self), rfl, rfl, status,
          starts⟩

/-- A watermark changes only for an enabled due alarm. -/
theorem HealthyPass.watermark {alarmId : Text}
    (pass : HealthyPass wallUtcSeconds monotonicSeconds alarms current evaluation final)
    (outside : ∀ alarm ∈ alarms, alarm.enabled = true →
      alarm.scheduledUtcSeconds ≤ wallUtcSeconds → alarmId ≠ alarm.id) :
    findHighWatermark final.2.snapshot.occurrenceState alarmId =
      findHighWatermark current.snapshot.occurrenceState alarmId := by
  induction pass with
  | done | unusable | refused => rfl
  | quiet _ _ _ _ ih => exact ih fun alarm mem => outside alarm (List.mem_cons_of_mem _ mem)
  | @stored _ _ first _ result journal _ decided usable persists valid room later ih =>
      rw [ih fun alarm mem => outside alarm (List.mem_cons_of_mem _ mem)]
      change findHighWatermark journal alarmId = _
      obtain ⟨enabled, due, -⟩ := crossedNow_iff.mp
        ((decided_outcome decided).crossed (.inr persists)).2
      have other := outside first List.mem_cons_self enabled due
      obtain ⟨-, lateness, -, ⟨-, -, journaled⟩ | ⟨-, -, journaled⟩⟩ :=
        (decided_outcome decided).journals persists
      · obtain rfl : journal = missOccurrence _ first .forwardJump := journaled
        rw [findHighWatermark, missOccurrence, appendTerminal_watermarks]
        exact find_raiseHighWatermark_of_ne _ _ other
      · obtain rfl := journaled
        rfl

end

/-! ### The stage of the active occurrence -/

/-- The alarm's watermark rose to the instant of the active occurrence, its own. -/
def RaisedToActive (before after : PersistentAlarmState) (alarmId : Text) : Prop :=
  ∃ a ∈ before.active, a.alarmId = alarmId ∧
    findHighWatermark after alarmId = some ⟨alarmId, a.scheduledUtcSeconds⟩ ∧
    ∀ w ∈ findHighWatermark before alarmId, w.scheduledUtcSeconds < a.scheduledUtcSeconds

/-- What the stage of the active occurrence leaves of the journal. -/
structure StageLeaves (before after : PersistentAlarmState) : Prop where
  terminal : ∀ t ∈ after.terminal,
    t ∈ before.terminal ∨ ∃ a ∈ before.active, t.occurrenceId = a.occurrenceId
  active : ∀ a ∈ after.active, ∃ b ∈ before.active, b.occurrenceId = a.occurrenceId
  watermarks : ∀ alarmId, findHighWatermark after alarmId = findHighWatermark before alarmId ∨
    RaisedToActive before after alarmId

theorem StageLeaves.refl (journal : PersistentAlarmState) : StageLeaves journal journal :=
  ⟨fun _ mem => .inl mem, fun a held => ⟨a, held, rfl⟩, fun _ => .inl rfl⟩

theorem StageLeaves.journaled {before after : PersistentAlarmState}
    (stage : StageLeaves before after) {d : AlarmDefinition} (journaled : Journaled after d) :
    Journaled before d := by
  rcases journaled with ⟨a, held, same⟩ | recorded
  · obtain ⟨b, before, name⟩ := stage.active a held
    exact .inl ⟨b, before, name.trans same⟩
  · obtain ⟨t, mem, same⟩ := List.mem_map.mp recorded
    rcases stage.terminal t mem with old | ⟨a, held, name⟩
    · exact .inr (same ▸ List.mem_map_of_mem old)
    · exact .inl ⟨a, held, name.symm.trans same⟩

theorem stageLeaves_closeActive {state : PersistentAlarmState} {active : ActiveOccurrence}
    (held : state.active = some active) (reason : TerminalReason) :
    StageLeaves state (closeActive state active reason) where
  terminal t mem := by
    rcases mem_appendTerminal mem with old | rfl
    · exact .inl old
    · exact .inr ⟨active, held, rfl⟩
  active a cleared := by
    cases cleared
  watermarks alarmId := by
    have after : (closeActive state active reason).terminalHighWatermarks =
        raiseHighWatermark active.alarmId active.scheduledUtcSeconds
          state.terminalHighWatermarks := appendTerminal_watermarks _ _
    simp only [RaisedToActive, findHighWatermark, after]
    by_cases own : active.alarmId = alarmId
    · subst own
      refine (find_raiseHighWatermark_cases _ _ _).imp_right ?_
      rintro ⟨raised, higher⟩
      exact ⟨active, held, rfl, raised, higher⟩
    · left
      exact find_raiseHighWatermark_of_ne _ _ (Ne.symm own)

theorem stageLeaves_update {state : PersistentAlarmState} {active updated : ActiveOccurrence}
    (held : state.active = some active) (same : active.occurrenceId = updated.occurrenceId) :
    StageLeaves state { state with active := some updated } where
  terminal t mem := .inl mem
  active a now := by
    obtain rfl := Option.some.inj now
    exact ⟨active, held, same⟩
  watermarks _ := .inl rfl

/-- No alarm is involved in the stage of the active occurrence. -/
theorem TickStep.stageLeaves {observation : RuntimeTickObservation}
    {before after : PersistentAlarmState} {edges : List AlertEdge}
    (step : TickStep [] observation before edges after) : StageLeaves before after := by
  cases step with
  | admitted eligible | missed _ eligible => cases eligible.mem
  | timedOut held | expired held => exact stageLeaves_closeActive held _
  | rerung held | recovered held => exact stageLeaves_update held rfl

/-! ### The evaluation -/

section

variable {current : Register} {wallUtcSeconds monotonicSeconds : Int64} {bootId : Text}

/-- A completed evaluation is the stage of the active occurrence and a due pass. -/
theorem exec_evaluate_ends (record : ValidRecord current)
    {run : CommittedScheduleEvaluation × Register}
    (evaluated : exec healthyRegister
      (evaluateCommittedSchedule wallUtcSeconds monotonicSeconds true bootId) current = run)
    (ends : run.1.status = .evaluated) :
    ∃ middle evaluation, ValidRecord middle ∧
      StageLeaves current.snapshot.occurrenceState middle.snapshot.occurrenceState ∧
      HealthyPass wallUtcSeconds monotonicSeconds (sortAlarms current.snapshot.alarms) middle
        evaluation run := by
  have ids : ValidIds (sortAlarms current.snapshot.alarms) := fun alarm mem =>
    record.schedule.validIds alarm (mem_sortAlarms.mp mem)
  cases held : current.snapshot.occurrenceState.active with
  | none =>
      rw [exec_evaluate_idle record held] at evaluated
      rw [← evaluated]
      exact ⟨current, current.evaluation, record, .refl _,
        exec_evaluateAlarms record (inStep_evaluation current) ids⟩
  | some active =>
      generalize transition : activeTransition current.snapshot.occurrenceState wallUtcSeconds
        monotonicSeconds bootId = done
      have kind := activeTransition_transition [] current.snapshot.occurrenceState
        ⟨true, wallUtcSeconds, monotonicSeconds, bootId⟩
      dsimp only at kind
      rw [transition] at kind
      generalize settled : exec healthyRegister (settleEvaluation done.2 current.evaluation
        (activeEntry active done.1)) current = stage
      rw [exec_evaluate_active record held transition settled] at evaluated
      have healthy := @exec_settleEvaluation current current.evaluation (activeEntry active done.1)
        done.2 record (inStep_evaluation current) fun persists => (kind.step persists).changed
      rw [settled] at healthy
      subst evaluated
      cases healthy with
      | unusable | refused => cases ends
      | quiet usable keeps =>
          rcases kind with ⟨-, -, same⟩ | ⟨persists, -⟩
          · rw [same]
            exact ⟨current, _, record, .refl _,
              exec_evaluateAlarms record (inStep_evaluation current).push ids⟩
          · rw [show done.1.persistBeforeEffects = false from keeps] at persists
            cases persists
      | stored usable persists accepted =>
          have fine := record.withJournal (record.writable.mp accepted).1
          exact ⟨current.withJournal done.2, _, fine, (kind.step persists).stageLeaves,
            exec_evaluateAlarms fine (inStep_evaluation current).commit.push ids⟩

end

/-! ### Classification -/

/-- Why the journal may lose a due occurrence: it held the record, active or terminal,
no watermark covers it, and the list is full of newer ones. -/
def Evicted (before after : PersistentAlarmState) (alarm : StoredAlarmDefinition) : Prop :=
  Journaled before alarm.definition ∧ ¬ Accounted after alarm ∧
    kRecentTerminalRetention ≤ after.terminal.length

/-- What a completed evaluation does to the journal of `snapshot`. -/
structure DuePass (snapshot : ScheduleSnapshot) (wallUtcSeconds monotonicSeconds : Int64)
    (evaluation : CommittedScheduleEvaluation) (journal : PersistentAlarmState) : Prop where
  complete : ∀ alarm ∈ snapshot.alarms, alarm.enabled = true →
    alarm.scheduledUtcSeconds ≤ wallUtcSeconds →
      Accounted journal alarm ∨ (ReportsDue evaluation alarm .conflict ∧ Blocked journal alarm) ∨
        Evicted snapshot.occurrenceState journal alarm
  /-- What is journaled for the first time was due; it is missed or rings, by its lateness. -/
  fresh : ∀ alarm ∈ snapshot.alarms, ¬ Journaled snapshot.occurrenceState alarm.definition →
    Journaled journal alarm.definition →
      alarm.enabled = true ∧ alarm.scheduledUtcSeconds ≤ wallUtcSeconds ∧ ∃ lateness,
        checkedElapsed wallUtcSeconds alarm.scheduledUtcSeconds = some lateness ∧
        (Misses evaluation journal alarm ↔ kLateGraceSeconds < lateness) ∧
        (Rings wallUtcSeconds monotonicSeconds evaluation journal alarm ↔
          lateness ≤ kLateGraceSeconds)
  /-- Every other alarm keeps its watermark, unless the active occurrence that ended was
  its own and raised it to its instant. -/
  watermarks : ∀ alarm ∈ snapshot.alarms,
    (alarm.enabled = false ∨ wallUtcSeconds < alarm.scheduledUtcSeconds) →
      findHighWatermark journal alarm.id =
          findHighWatermark snapshot.occurrenceState alarm.id ∨
        RaisedToActive snapshot.occurrenceState journal alarm.id

section

variable {current : Register} {wallUtcSeconds monotonicSeconds : Int64} {bootId : Text}
  {alarms : List StoredAlarmDefinition}

/-- A miss has a record and an admission the active slot, so they exclude each other. -/
theorem Fresh.exact {evaluation : CommittedScheduleEvaluation} {journal : PersistentAlarmState}
    {alarm : StoredAlarmDefinition} (valid : ValidJournal journal)
    (fresh : Fresh alarms wallUtcSeconds monotonicSeconds evaluation journal alarm) :
    ∃ lateness, checkedElapsed wallUtcSeconds alarm.scheduledUtcSeconds = some lateness ∧
      (Misses evaluation journal alarm ↔ kLateGraceSeconds < lateness) ∧
      (Rings wallUtcSeconds monotonicSeconds evaluation journal alarm ↔
        lateness ≤ kLateGraceSeconds) := by
  have apart : Misses evaluation journal alarm →
      Rings wallUtcSeconds monotonicSeconds evaluation journal alarm → False := by
    rintro ⟨-, recorded⟩ ⟨-, held⟩
    exact valid.activeNotTerminal _ held (List.mem_map_of_mem recorded)
  obtain ⟨lateness, elapsed, ⟨late, misses⟩ | ⟨grace, rings⟩⟩ := fresh.classified
  · refine ⟨lateness, elapsed, ⟨fun _ => late, fun _ => misses⟩, ?_⟩
    constructor
    · intro rings
      exact (apart misses rings).elim
    · intro grace
      exact absurd late (Int64.not_lt.mpr grace)
  · refine ⟨lateness, elapsed, ?_, ⟨fun _ => grace, fun _ => rings⟩⟩
    constructor
    · intro misses
      exact (apart misses rings).elim
    · intro late
      exact absurd late (Int64.not_lt.mpr grace)

theorem exec_evaluate_classified (record : ValidRecord current)
    {run : CommittedScheduleEvaluation × Register}
    (evaluated : exec healthyRegister
      (evaluateCommittedSchedule wallUtcSeconds monotonicSeconds true bootId) current = run)
    (ends : run.1.status = .evaluated) :
    ValidRecord run.2 ∧ DuePass current.snapshot wallUtcSeconds monotonicSeconds run.1
      run.2.snapshot.occurrenceState := by
  obtain ⟨middle, between, fine, stage, pass⟩ := exec_evaluate_ends record evaluated ends
  have distinct : ((sortAlarms current.snapshot.alarms).map (·.id)).Nodup :=
    ((sortAlarms_perm _).map _).nodup_iff.mpr record.schedule.ids
  have isFresh : ∀ alarm ∈ current.snapshot.alarms,
      ¬ Journaled current.snapshot.occurrenceState alarm.definition →
      Journaled run.2.snapshot.occurrenceState alarm.definition →
      Fresh (sortAlarms current.snapshot.alarms) wallUtcSeconds monotonicSeconds run.1
        run.2.snapshot.occurrenceState alarm := by
    intro alarm mem unknown journaled
    have origin : ∃ other, makeOccurrenceId other.definition = makeOccurrenceId alarm.definition ∧
        Fresh (sortAlarms current.snapshot.alarms) wallUtcSeconds monotonicSeconds run.1
          run.2.snapshot.occurrenceState other := by
      rcases journaled with ⟨a, held, name⟩ | recorded
      · rcases pass.active_origin held with old | ⟨other, same, fresh⟩
        · exact absurd (stage.journaled (.inl ⟨a, old, name⟩)) unknown
        · exact ⟨other, same.trans name, fresh⟩
      · obtain ⟨t, listed, name⟩ := List.mem_map.mp recorded
        rcases pass.terminal_origin listed with old | ⟨other, same, fresh⟩
        · exact absurd (stage.journaled (.inr (name ▸ List.mem_map_of_mem old))) unknown
        · exact ⟨other, same.trans name, fresh⟩
    obtain ⟨other, same, fresh⟩ := origin
    have id : other.id = alarm.id := (makeOccurrenceId_inj same).1
    obtain rfl := List.inj_on_of_nodup_map record.schedule.ids (mem_sortAlarms.mp fresh.mem) mem id
    exact fresh
  refine ⟨pass.record fine, ?_⟩
  constructor
  · intro alarm mem enabled due
    rcases pass.complete ends distinct alarm (mem_sortAlarms.mpr mem) enabled due with
      accounted | conflict | ⟨recorded, many⟩
    · exact .inl accounted
    · exact .inr (.inl conflict)
    · by_cases accounted : Accounted run.2.snapshot.occurrenceState alarm
      · exact .inl accounted
      · exact .inr (.inr ⟨stage.journaled (.inr (isTerminal_iff.mp recorded)), accounted, many⟩)
  · intro alarm mem unknown journaled
    have fresh := isFresh alarm mem unknown journaled
    exact ⟨fresh.enabled, fresh.due, fresh.exact (pass.record fine).journal⟩
  · intro alarm mem inert
    suffices outside : ∀ other ∈ sortAlarms current.snapshot.alarms, other.enabled = true →
        other.scheduledUtcSeconds ≤ wallUtcSeconds → alarm.id ≠ other.id by
      simpa only [RaisedToActive, pass.watermark outside] using stage.watermarks alarm.id
    intro other listed enabled due same
    obtain rfl := List.inj_on_of_nodup_map record.schedule.ids mem (mem_sortAlarms.mp listed) same
    rcases inert with disabled | future
    · rw [enabled] at disabled
      cases disabled
    · exact absurd due (Int64.not_le.mpr future)

/-! ### The order of storage -/

/-- The record with its alarms stored in another order. -/
def Register.reorder (current : Register) (alarms : List StoredAlarmDefinition) : Register :=
  { current with snapshot := { current.snapshot with alarms } }

/-- The program does not depend on the order of the stored alarms. -/
def OrderFree {α : Type} (alarms : List StoredAlarmDefinition) (p : Program StoreReply α) : Prop :=
  ∀ current : Register, current.snapshot.alarms.Perm alarms →
    (exec healthyRegister p current).2.snapshot.alarms.Perm alarms ∧
      exec healthyRegister p (current.reorder alarms) =
        ((exec healthyRegister p current).1, (exec healthyRegister p current).2.reorder alarms)

theorem orderFree_pure {α : Type} (a : α) : OrderFree alarms (pure a : Program StoreReply α) :=
  fun _ perm => ⟨perm, rfl⟩

theorem OrderFree.bind {α β : Type} {p : Program StoreReply α} {f : α → Program StoreReply β}
    (first : OrderFree alarms p) (rest : ∀ a, OrderFree alarms (f a)) :
    OrderFree alarms (p >>= f) := by
  intro current perm
  obtain ⟨still, same⟩ := first current perm
  obtain ⟨ends, final⟩ := rest (exec healthyRegister p current).1 _ still
  rw [exec_bind, exec_bind, same]
  exact ⟨ends, final⟩

theorem validSchedule_reorder {snapshot : ScheduleSnapshot} {other : List StoredAlarmDefinition}
    (perm : snapshot.alarms.Perm other) (valid : ValidSchedule snapshot) :
    ValidSchedule { snapshot with alarms := other } where
  revision := valid.revision
  timezone := valid.timezone
  count := perm.length_eq ▸ valid.count
  alarms alarm mem := valid.alarms alarm (perm.mem_iff.mpr mem)
  ids := (perm.map _).nodup_iff.mp valid.ids

theorem validateSnapshot_reorder {snapshot : ScheduleSnapshot}
    (perm : snapshot.alarms.Perm alarms) :
    validateSnapshot { snapshot with alarms } = validateSnapshot snapshot := by
  rw [Bool.eq_iff_iff, validateSnapshot_iff, validateSnapshot_iff]
  apply and_congr_left
  intro _
  constructor
  · intro valid
    exact @validSchedule_reorder { snapshot with alarms } snapshot.alarms perm.symm valid
  · intro valid
    exact validSchedule_reorder perm valid

/-- A plan for the record in the other order. -/
def WritePlan.reorder (alarms : List StoredAlarmDefinition) : WritePlan → WritePlan
  | .answer result => .answer result
  | .commit snapshot destination => .commit { snapshot with alarms } destination

theorem saveOccurrenceStatePlan_reorder (journal : PersistentAlarmState)
    (expectedRevision expectedGeneration : UInt64) (perm : current.snapshot.alarms.Perm alarms) :
    saveOccurrenceStatePlan (current.reorder alarms) journal expectedRevision expectedGeneration =
      (saveOccurrenceStatePlan current journal expectedRevision expectedGeneration).reorder
        alarms := by
  obtain ⟨status, ⟨revision, version, stored, before⟩, generation, source, migrated⟩ := current
  have accepts : validateSnapshot ⟨revision, version, alarms, journal⟩ =
      validateSnapshot ⟨revision, version, stored, journal⟩ :=
    @validateSnapshot_reorder alarms ⟨revision, version, stored, journal⟩ perm
  simp only [saveOccurrenceStatePlan, Register.reorder, accepts, ScheduleSnapshot.mk.injEq,
    true_and]
  cases unreadableAnswer status with
  | some answer => rfl
  | none =>
      simp only [apply_ite (WritePlan.reorder alarms)]
      rfl

theorem orderFree_saveOccurrenceState (journal : PersistentAlarmState)
    (expectedRevision expectedGeneration : UInt64) :
    OrderFree alarms
      (AtomicScheduleStore.saveOccurrenceState journal expectedRevision expectedGeneration) := by
  intro current perm
  have run (c : Register) : exec healthyRegister (AtomicScheduleStore.saveOccurrenceState journal
      expectedRevision expectedGeneration) c = writeRegister {} c (saveOccurrenceStatePlan c
        journal expectedRevision expectedGeneration) := rfl
  rw [run, run, saveOccurrenceStatePlan_reorder journal expectedRevision expectedGeneration perm]
  cases planned : saveOccurrenceStatePlan current journal expectedRevision expectedGeneration with
  | answer result => exact ⟨perm, rfl⟩
  | commit snapshot destination =>
      obtain ⟨-, -, rfl, -, -⟩ := saveOccurrenceStatePlan_commit planned
      exact ⟨perm, rfl⟩

theorem orderFree_settleEvaluation (journal : PersistentAlarmState)
    (evaluation : CommittedScheduleEvaluation) (alarm : CommittedAlarmEvaluation) :
    OrderFree alarms (settleEvaluation journal evaluation alarm) := by
  unfold settleEvaluation
  split
  · exact orderFree_pure _
  apply OrderFree.bind
  · unfold commitOccurrenceTransition
    split
    · exact orderFree_pure _
    apply (orderFree_saveOccurrenceState _ _ _).bind
    intro committed
    dsimp only
    split
    · exact orderFree_pure _
    split <;> exact orderFree_pure _
  · intro settled
    cases settled <;> exact orderFree_pure _

theorem orderFree_evaluateAlarms (sorted : List StoredAlarmDefinition)
    (journal : PersistentAlarmState) (evaluation : CommittedScheduleEvaluation) :
    OrderFree alarms
      (evaluateAlarms wallUtcSeconds monotonicSeconds sorted journal evaluation) := by
  induction sorted generalizing journal evaluation with
  | nil => exact orderFree_pure _
  | cons first rest ih =>
      apply (orderFree_settleEvaluation _ _ _).bind
      intro settled
      cases settled with
      | error => exact orderFree_pure _
      | ok evaluation => exact ih _ _

/-- The evaluation of a reordered record. -/
theorem exec_evaluate_reorder (distinct : (current.snapshot.alarms.map (·.id)).Nodup)
    (perm : current.snapshot.alarms.Perm alarms) (timeValid : Bool) :
    let evaluate := evaluateCommittedSchedule wallUtcSeconds monotonicSeconds timeValid bootId
    exec healthyRegister evaluate (current.reorder alarms) =
      ((exec healthyRegister evaluate current).1,
        (exec healthyRegister evaluate current).2.reorder alarms) := by
  have sorted : sortAlarms (current.reorder alarms).snapshot.alarms =
      sortAlarms current.snapshot.alarms := (sortAlarms_eq_of_perm perm distinct).symm
  intro evaluate
  cases timeValid with
  | false => rfl
  | true =>
      simp only [evaluate, evaluateCommittedSchedule, Bool.not_true, Bool.false_eq_true, if_false]
      rw [exec_load, exec_load, sorted]
      refine ((?_ : OrderFree alarms _) current perm).2
      split
      · exact orderFree_pure _
      split
      · exact orderFree_evaluateAlarms _ _ _
      · apply (orderFree_settleEvaluation _ _ _).bind
        intro settled
        cases settled with
        | error => exact orderFree_pure _
        | ok evaluation => exact orderFree_evaluateAlarms _ _ _

end

/-- Over healthy storage and without a writer beside it: an evaluation that comes to its
end classifies every due occurrence by its lateness, and leaves the same journal for every
order the alarms are stored in. -/
theorem due_pass_classifies {slots : Slots} (wallUtcSeconds monotonicSeconds : Int64)
    (timeValid : Bool) (bootId : Text) (loaded : (scanSlots slots).status = .loaded)
    (ends : (exec (performStore {}) (evaluateCommittedSchedule wallUtcSeconds monotonicSeconds
      timeValid bootId) slots).1.status = .evaluated) :
    let evaluate := evaluateCommittedSchedule wallUtcSeconds monotonicSeconds timeValid bootId
    let run := exec (performStore {}) evaluate slots
    DuePass (scanSlots slots).snapshot wallUtcSeconds monotonicSeconds run.1
        (Slots.journal run.2) ∧
      ∀ (reordered : Slots) (alarms : List StoredAlarmDefinition),
        (scanSlots slots).snapshot.alarms.Perm alarms →
        scanSlots reordered = Register.reorder (scanSlots slots) alarms →
          Slots.journal (exec (performStore {}) evaluate reordered).2 = Slots.journal run.2 := by
  intro evaluate run
  have record := validRecord_scanSlots loaded
  obtain ⟨first, final⟩ := exec_healthy evaluate slots
  constructor
  · obtain rfl : timeValid = true := by
      cases timeValid with
      | true => rfl
      | false => cases ends
    have ends : (exec healthyRegister evaluate (scanSlots slots)).1.status = .evaluated :=
      first ▸ ends
    obtain ⟨after, classified⟩ := exec_evaluate_classified record rfl ends
    rw [← final] at after classified
    rw [← first] at classified
    rwa [Slots.journal, after.journal_eq]
  · intro reordered alarms perm same
    obtain ⟨-, other⟩ := exec_healthy evaluate reordered
    rw [same, exec_evaluate_reorder record.schedule.ids perm, ← final] at other
    rw [Slots.journal, other]
    rfl

/-- Two alarms, stored latest first: the first is due, and the second disabled. -/
def pairSchedule : ScheduleSnapshot :=
  { revision := 1, timezoneRulesVersion := [0x31]
    alarms := [⟨[0x77], 1, false, 100⟩, ⟨[0x66], 1, true, 100⟩] }

theorem due_pass_classifies_pair :
    let slots := firstStore pairSchedule
    let run := exec (performStore {}) (evaluateCommittedSchedule 700 5 true []) slots
    DuePass (scanSlots slots).snapshot 700 5 run.1 (Slots.journal run.2) ∧
      (Slots.journal run.2).active = some (admittedOccurrence ⟨[0x66], 1, true, 100⟩ 700 5) := by
  have loaded := @scanSlots_firstStore pairSchedule rfl (by decide +kernel)
  obtain ⟨first, final⟩ := exec_healthy (evaluateCommittedSchedule 700 5 true [])
    (firstStore pairSchedule)
  rw [loaded] at first final
  intro slots run
  constructor
  · refine (due_pass_classifies 700 5 true [] ?_ ?_).1
    · rw [loaded]
    · rw [first]
      decide +kernel
  · rw [Slots.journal, show scanSlots run.2 = _ from final]
    decide +kernel

/-- The miss of the second alarm evicts the first alarm's record, behind its evaluation:
the first alarm ends neither journaled nor covered, and no conflict is reported for it. -/
theorem evicted_record_is_not_accounted :
    let run := exec (performStore {}) (evaluateCommittedSchedule 2000 5 true [])
      (firstStore fullSchedule)
    (scanSlots (firstStore fullSchedule)).status = .loaded ∧ run.1.status = .evaluated ∧
      ∃ alarm ∈ (scanSlots (firstStore fullSchedule)).snapshot.alarms,
        alarm.enabled = true ∧ alarm.scheduledUtcSeconds ≤ 2000 ∧
          ¬ Accounted (Slots.journal run.2) alarm ∧
          ∀ entry ∈ run.1.alarms, entry.result.status ≠ .conflict := by
  have loaded := @scanSlots_firstStore fullSchedule rfl (by decide +kernel)
  obtain ⟨first, final⟩ := exec_healthy (evaluateCommittedSchedule 2000 5 true [])
    (firstStore fullSchedule)
  rw [loaded] at first final
  intro run
  refine ⟨by rw [loaded], ?_, ⟨[0x66], 1, true, 100⟩, ?_, rfl, by decide, ?_, ?_⟩
  · rw [show run.1 = _ from first]
    decide +kernel
  · rw [loaded]
    exact List.mem_cons_self
  · rw [Slots.journal, show scanSlots run.2 = _ from final, Accounted]
    decide +kernel
  · rw [show run.1 = _ from first]
    decide +kernel

end DawnDock
