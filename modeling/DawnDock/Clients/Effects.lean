import DawnDock.Clients.Commit
import DawnDock.Journal.Due
import DawnDock.Journal.Sound

/-!
What a tick reports, against the journal.

`RuntimeTickEffect.HoldsIn` says that a journal holds what an effect reports. A
transition reports what it leaves: without a commit what the journal holds, else what
it holds once the commit is durable (`Reflects`). One that closes an occurrence records
it last (`Freshens`), and the active occurrence goes on or is closed (`Progress`).
-/

namespace DawnDock

open AtomicProgram

/-! ### Effects and the journal -/

/-- The alarm and the instant of an occurrence that a stage of a tick reports: the
active one of the record the tick began with, or one of its schedule. -/
def Names (snapshot : ScheduleSnapshot) (stage : RuntimeEffectStage) (occurrenceId alarmId : Text)
    (instant : Int64) : Prop :=
  if stage = .activeLifecycle then
    ∃ a ∈ snapshot.occurrenceState.active, a.occurrenceId = occurrenceId ∧ a.alarmId = alarmId ∧
      a.scheduledUtcSeconds = instant
  else
    ∃ alarm ∈ snapshot.alarms, makeOccurrenceId alarm.definition = occurrenceId ∧
      alarm.id = alarmId ∧ alarm.scheduledUtcSeconds = instant

/-- The journal has the reported state of the occurrence. One that is over has closed its
alarm; its record may be gone. -/
def Holds (snapshot : ScheduleSnapshot) (stage : RuntimeEffectStage) (status : EvaluationStatus)
    (occurrenceId : Text) (journal : PersistentAlarmState) : Prop :=
  match status with
  | .ringing => ∃ a ∈ journal.active, a.occurrenceId = occurrenceId ∧
      a.snoozeDeadlineMonotonicSeconds = none
  | .snoozed => ∃ a ∈ journal.active, a.occurrenceId = occurrenceId ∧
      a.snoozeDeadlineMonotonicSeconds ≠ none
  | .missed | .timedOut => ∃ alarmId instant, Names snapshot stage occurrenceId alarmId instant ∧
      Closed journal alarmId instant
  | _ => True

def RuntimeTickEffect.StandsIn (snapshot : ScheduleSnapshot) (journal : PersistentAlarmState)
    (effect : RuntimeTickEffect) : Prop :=
  Holds snapshot effect.stage effect.status effect.occurrenceId journal

/-- The status of an occurrence that is over. -/
def Closes (status : EvaluationStatus) : Prop := status = .missed ∨ status = .timedOut

/-- The occurrence the effect reports as over has its record. -/
def RuntimeTickEffect.RecordedIn (journal : PersistentAlarmState) (effect : RuntimeTickEffect) :
    Prop :=
  Closes effect.status → Recorded journal effect.occurrenceId

/-- As the last one. -/
def RuntimeTickEffect.FreshIn (journal : PersistentAlarmState) (effect : RuntimeTickEffect) :
    Prop :=
  Closes effect.status → Behind 0 journal effect.occurrenceId

/-- The journal holds what the effect reports: the active occurrence, with or without a
deadline, or the terminal record of a closed one. -/
structure RuntimeTickEffect.HoldsIn (snapshot : ScheduleSnapshot) (journal : PersistentAlarmState)
    (effect : RuntimeTickEffect) : Prop where
  stands : effect.StandsIn snapshot journal
  recorded : effect.RecordedIn journal

/-- A transition reports what it leaves: without a commit what the journal holds, else
what the journal holds once the commit is durable, and not before. -/
structure Reflects (snapshot : ScheduleSnapshot) (stage : RuntimeEffectStage)
    (state : PersistentAlarmState) (done : EvaluationResult × PersistentAlarmState) : Prop where
  idle : done.1.persistBeforeEffects = false → done.2 = state ∧
    Holds snapshot stage done.1.status done.1.occurrenceId state
  moved : done.1.persistBeforeEffects = true → done.1.status ≠ .invalidTime ∧
    Holds snapshot stage done.1.status done.1.occurrenceId done.2 ∧
    ¬ Holds snapshot stage done.1.status done.1.occurrenceId state

/-- The effects that hold before still hold after. -/
def Keeps (snapshot : ScheduleSnapshot) (before after : PersistentAlarmState) : Prop :=
  ∀ effect : RuntimeTickEffect, effect.StandsIn snapshot before → effect.StandsIn snapshot after

section

variable {snapshot : ScheduleSnapshot} {observation : RuntimeTickObservation}
  {stage : RuntimeEffectStage} {status : EvaluationStatus} {occurrenceId : Text}
  {state final : PersistentAlarmState} {edges : List AlertEdge} {alarm : StoredAlarmDefinition}

theorem Holds.step (h : Holds snapshot stage status occurrenceId state)
    (closes : status ≠ .ringing ∧ status ≠ .snoozed)
    (step : TickStep snapshot.alarms observation state edges final) :
    Holds snapshot stage status occurrenceId final := by
  cases status with
  | ringing => exact absurd rfl closes.1
  | snoozed => exact absurd rfl closes.2
  | missed | timedOut =>
      obtain ⟨alarmId, instant, names, closed⟩ := h
      exact ⟨alarmId, instant, names, closed.step step⟩
  | _ => trivial

theorem Holds.steps (h : Holds snapshot stage status occurrenceId state)
    (closes : status ≠ .ringing ∧ status ≠ .snoozed)
    (steps : TickSteps snapshot.alarms observation state edges final) :
    Holds snapshot stage status occurrenceId final := by
  induction steps with
  | nil => exact h
  | cons step rest ih => exact ih (h.step closes step)

/-- An active occurrence is reported as such. -/
theorem Holds.busy (h : Holds snapshot stage status occurrenceId state)
    (active : status = .ringing ∨ status = .snoozed) : state.active ≠ none := by
  rcases active with rfl | rfl
  · obtain ⟨a, held, -⟩ := h
    exact Option.ne_none_iff_exists'.mpr ⟨a, held⟩
  · obtain ⟨a, held, -⟩ := h
    exact Option.ne_none_iff_exists'.mpr ⟨a, held⟩

theorem keeps_evaluateDue (mem : alarm ∈ snapshot.alarms) :
    Keeps snapshot state (evaluateDue alarm.definition state observation.wallUtcSeconds
      observation.monotonicSeconds true).2 := by
  intro effect holds
  by_cases active : effect.status = .ringing ∨ effect.status = .snoozed
  · rw [evaluateDue_busy (Holds.busy holds active)]
    exact holds
  · rcases evaluateDue_transition mem state observation with ⟨-, -, same⟩ | ⟨-, step⟩
    · rwa [same]
    · exact Holds.step holds (not_or.mp active) step

theorem reflects_quiet {result : EvaluationResult} (keeps : result.persistBeforeEffects = false)
    (holds : Holds snapshot stage result.status result.occurrenceId state) :
    Reflects snapshot stage state (result, state) where
  idle _ := ⟨rfl, holds⟩
  moved persists := by
    rw [keeps] at persists
    cases persists

theorem reflects_commit {done : EvaluationResult × PersistentAlarmState}
    (persists : done.1.persistBeforeEffects = true)
    (moved : done.1.status ≠ .invalidTime ∧
      Holds snapshot stage done.1.status done.1.occurrenceId done.2 ∧
      ¬ Holds snapshot stage done.1.status done.1.occurrenceId state) :
    Reflects snapshot stage state done where
  idle keeps := by
    rw [persists] at keeps
    cases keeps
  moved _ := moved

theorem reflects_evaluateDue (mem : alarm ∈ snapshot.alarms) :
    Reflects snapshot .evaluation state (evaluateDue alarm.definition state
      observation.wallUtcSeconds observation.monotonicSeconds true) := by
  have outcome := evaluateDue_outcome observation.wallUtcSeconds observation.monotonicSeconds
    state alarm
  generalize evaluateDue alarm.definition state observation.wallUtcSeconds
    observation.monotonicSeconds true = done at outcome
  cases outcome with
  | quiet keeps status =>
      refine reflects_quiet keeps ?_
      rcases status with status | status | status | status
      all_goals
        rw [status]
        trivial
  | unusable keeps status =>
      refine reflects_quiet keeps ?_
      rw [status]
      trivial
  | missed keeps status name idle crossed =>
      refine reflects_commit keeps ?_
      simp only [status, name]
      refine ⟨by simp, ⟨_, _, ⟨alarm, mem, rfl, rfl, rfl⟩, closed_missOccurrence idle _⟩, ?_⟩
      rintro ⟨_, _, ⟨other, -, same, rfl, rfl⟩, closed⟩
      obtain ⟨id, -, instant⟩ := makeOccurrenceId_inj same
      have below := closed.watermark
      rw [show other.id = alarm.id from id,
        show other.scheduledUtcSeconds = alarm.scheduledUtcSeconds from instant,
        (crossedNow_iff.mp crossed).2.2.2] at below
      cases below
  | admitted keeps status name _ idle =>
      refine reflects_commit keeps ?_
      simp only [status, name]
      refine ⟨by simp, ⟨_, rfl, rfl, rfl⟩, fun holds => ?_⟩
      exact Holds.busy holds (.inl rfl) idle

/-- The active occurrence is the one the tick began with, as far as its identity goes. -/
def ActiveNamed (snapshot : ScheduleSnapshot) (state : PersistentAlarmState) : Prop :=
  ∀ a ∈ state.active, Names snapshot .activeLifecycle a.occurrenceId a.alarmId a.scheduledUtcSeconds

theorem reflects_advanceActive (same : ActiveNamed snapshot state) (monotonicSeconds : Int64) :
    Reflects snapshot .activeLifecycle state (advanceActive state monotonicSeconds) := by
  unfold advanceActive
  split
  · exact reflects_quiet rfl trivial
  rename_i active held
  dsimp only
  split
  · exact reflects_quiet rfl trivial
  rename_i elapsed known
  split
  · refine reflects_commit rfl ⟨by simp, ?_, ?_⟩
    · exact ⟨_, _, same active held, closed_closeActive _⟩
    · rintro ⟨alarmId, instant, names, closed⟩
      obtain ⟨first, isFirst, -, id, instant'⟩ := same active held
      obtain ⟨other, isOther, -, id', rfl⟩ := names
      obtain rfl := Option.some.inj (isFirst.symm.trans isOther)
      have behind := closed.behind active held (id.symm.trans id')
      rw [instant'] at behind
      exact Int64.lt_irrefl behind
  · split
    · rename_i ringing
      exact reflects_quiet rfl ⟨active, held, rfl, ringing⟩
    rename_i deadline snoozed
    split
    · exact reflects_quiet rfl ⟨active, held, rfl, by simp [snoozed]⟩
    · refine reflects_commit rfl ⟨by simp, ⟨_, rfl, rfl, rfl⟩, ?_⟩
      rintro ⟨a, held', -, ringing⟩
      obtain rfl := Option.some.inj (held.symm.trans held')
      rw [snoozed] at ringing
      cases ringing

theorem ActiveNamed.step (same : ActiveNamed snapshot state) (busy : state.active ≠ none)
    (step : TickStep snapshot.alarms observation state edges final) :
    ActiveNamed snapshot final := by
  intro a held
  cases step with
  | admitted eligible => exact absurd eligible.idle busy
  | missed reason eligible => exact absurd eligible.idle busy
  | timedOut => cases held
  | expired => cases held
  | @rerung active deadline held' | @recovered active elapsed anchor held' =>
      obtain rfl := Option.some.inj held
      exact same active held'

/-- Settling reports what it leaves. -/
theorem holds_settleTransition (same : ActiveNamed snapshot state) (bootPending : Bool) :
    let done := settleTransition state observation bootPending
    (done.1.persistBeforeEffects = false →
      Holds snapshot .activeLifecycle done.1.status done.1.occurrenceId state) ∧
    (done.1.persistBeforeEffects = true →
      Holds snapshot .activeLifecycle done.1.status done.1.occurrenceId done.2) := by
  cases bootPending with
  | false =>
      have reflects := reflects_advanceActive same observation.monotonicSeconds
      exact ⟨fun keeps => (reflects.idle keeps).2, fun persists => (reflects.moved persists).2.1⟩
  | true =>
      simp only [settleTransition, if_true, recoverAfterReboot]
      split
      · exact ⟨fun _ => trivial, fun persists => by cases persists⟩
      rename_i active held
      split
      · exact ⟨fun _ => trivial, fun persists => by cases persists⟩
      split
      · exact ⟨fun _ => trivial, fun persists => by cases persists⟩
      split
      · exact ⟨fun keeps => by (cases keeps), fun _ => ⟨_, _, same active held, closed_closeActive _⟩⟩
      · exact ⟨fun keeps => by (cases keeps), fun _ => ⟨_, rfl, rfl, rfl⟩⟩

/-- Settling a boot ends the occurrence, or leaves it ringing with time to live. -/
theorem settled_quiet
    (persists : (settleTransition state observation true).1.persistBeforeEffects = true) :
    let done := settleTransition state observation true
    (done.1.status ≠ .ringing ∧ done.1.status ≠ .snoozed) ∨ Quiet observation done.2 := by
  have starts := (settleTransition_boot persists).2.2.2.2
  revert persists starts
  simp only [settleTransition, if_true, recoverAfterReboot]
  cases held : state.active with
  | none =>
      intro persists
      cases persists
  | some active =>
      dsimp only
      split
      · intro persists
        cases persists
      split
      · intro persists
        cases persists
      split
      · intro _ _
        exact .inl ⟨by simp, by simp⟩
      · intro _ starts
        exact .inr (starts active.occurrenceId (by simp [EvaluationResult.edges, alertEdges]))

/-- What settling a boot reports, the advance of the same tick leaves. -/
theorem holds_advanceActive_settled
    (persists : (settleTransition state observation true).1.persistBeforeEffects = true) :
    let done := settleTransition state observation true
    Holds snapshot .activeLifecycle done.1.status done.1.occurrenceId done.2 →
      Holds snapshot .activeLifecycle done.1.status done.1.occurrenceId
        (advanceActive done.2 observation.monotonicSeconds).2 := by
  intro done holds
  rcases advanceActive_transition snapshot.alarms done.2 (observation.booted false) with
    ⟨-, -, unchanged⟩ | ⟨-, step⟩
  · rw [show (advanceActive done.2 observation.monotonicSeconds).2 = done.2 from unchanged]
    exact holds
  · rcases settled_quiet persists with closes | quiet
    · exact holds.step closes step
    · exact absurd quiet (step.not_quiet rfl)

end

/-! ### Records -/

section

variable {wallUtcSeconds monotonicSeconds : Int64} {state : PersistentAlarmState}
  {alarm : StoredAlarmDefinition} {occurrenceId : Text}

theorem behind_missOccurrence (fresh : ¬ Recorded state (makeOccurrenceId alarm.definition))
    (reason : TerminalReason) :
    Behind 0 (missOccurrence state alarm reason) (makeOccurrenceId alarm.definition) := by
  rw [Behind, missOccurrence_terminal]
  exact behind_appendTerminal_self fresh

theorem behind_closeActive {active : ActiveOccurrence}
    (fresh : ¬ Recorded state active.occurrenceId) (reason : TerminalReason) :
    Behind 0 (closeActive state active reason) active.occurrenceId := by
  rw [Behind, closeActive_terminal]
  exact behind_appendTerminal_self fresh

/-- The record of a transition that closes its occurrence is the last one. -/
def Freshens (done : EvaluationResult × PersistentAlarmState) : Prop :=
  Closes done.1.status → done.1.persistBeforeEffects = true ∧ Behind 0 done.2 done.1.occurrenceId

theorem freshens_evaluateDue (wallUtcSeconds monotonicSeconds : Int64)
    (state : PersistentAlarmState) (alarm : StoredAlarmDefinition) :
    Freshens (evaluateDue alarm.definition state wallUtcSeconds monotonicSeconds true) := by
  intro closes
  have outcome := evaluateDue_outcome wallUtcSeconds monotonicSeconds state alarm
  generalize evaluateDue alarm.definition state wallUtcSeconds monotonicSeconds true = done
    at outcome closes
  cases outcome with
  | quiet keeps status =>
      rcases closes with closes | closes
      all_goals
        rw [closes] at status
        simp at status
  | unusable keeps status | admitted keeps status =>
      rcases closes with closes | closes
      all_goals
        rw [closes] at status
        cases status
  | missed keeps status name idle crossed =>
      refine ⟨keeps, ?_⟩
      rw [name]
      exact behind_missOccurrence (unrecorded_of_crossed crossed) _

/-- A turn of the pass records one occurrence at most. -/
theorem behind_evaluateDue {count : ℕ} (behind : Behind count state occurrenceId) :
    let next := (evaluateDue alarm.definition state wallUtcSeconds monotonicSeconds true).2
    Behind (count + 1) next occurrenceId ∨ kRecentTerminalRetention ≤ count + 1 := by
  have outcome := evaluateDue_outcome wallUtcSeconds monotonicSeconds state alarm
  generalize evaluateDue alarm.definition state wallUtcSeconds monotonicSeconds true = done
    at outcome
  cases outcome with
  | quiet | unusable | admitted => exact .inl (behind.mono (Nat.le_succ _))
  | missed =>
      simp only [Behind, missOccurrence_terminal]
      exact behind.append _

/-- What becomes of the active occurrence: it goes on, and nothing is recorded, or it is
closed. -/
inductive Progress (state : PersistentAlarmState) (active : ActiveOccurrence) :
    EvaluationResult × PersistentAlarmState → Prop where
  | goesOn {done : EvaluationResult × PersistentAlarmState} {next : ActiveOccurrence}
      (opens : ¬ Closes done.1.status) (held : done.2.active = some next)
      (name : next.occurrenceId = active.occurrenceId) (records : done.2.terminal = state.terminal) :
      Progress state active done
  | closes {result : EvaluationResult} {reason : TerminalReason} (closes : Closes result.status)
      (persists : result.persistBeforeEffects = true)
      (name : result.occurrenceId = active.occurrenceId) :
      Progress state active (result, closeActive state active reason)

/-- What is not committed is not closed. -/
theorem Progress.opens {active : ActiveOccurrence} {done : EvaluationResult × PersistentAlarmState}
    (progress : Progress state active done) (keeps : done.1.persistBeforeEffects = false) :
    ¬ Closes done.1.status := by
  intro closes
  cases progress with
  | goesOn opens => exact opens closes
  | closes _ persists =>
      rw [persists] at keeps
      cases keeps

theorem advanceActive_progress {active : ActiveOccurrence} (held : state.active = some active)
    (monotonicSeconds : Int64) : Progress state active (advanceActive state monotonicSeconds) := by
  simp only [advanceActive, held]
  split
  · exact .goesOn (by simp [Closes, invalidTimeResult]) held rfl rfl
  split
  · exact .closes (.inr rfl) rfl rfl
  split
  · exact .goesOn (by simp [Closes]) held rfl rfl
  split
  · exact .goesOn (by simp [Closes]) held rfl rfl
  · exact .goesOn (by simp [Closes]) rfl rfl rfl

theorem settleTransition_progress {active : ActiveOccurrence} (held : state.active = some active)
    (observation : RuntimeTickObservation) (bootPending : Bool) :
    Progress state active (settleTransition state observation bootPending) := by
  cases bootPending with
  | false => exact advanceActive_progress held observation.monotonicSeconds
  | true =>
      simp only [settleTransition, if_true, recoverAfterReboot, held]
      split
      · exact .goesOn (by simp [Closes]) (congrArg (Option.map _) held) rfl rfl
      split
      · exact .goesOn (by simp [Closes, invalidTimeResult]) (congrArg (Option.map _) held) rfl rfl
      split
      · exact @Progress.closes state active _ .prolongedPowerOff (.inl rfl) rfl rfl
      · exact .goesOn (by simp [Closes]) rfl rfl rfl

end

end DawnDock
