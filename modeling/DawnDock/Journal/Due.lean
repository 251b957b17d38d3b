import DawnDock.Journal.Closed

/-!
What the due pass decides for one alarm.

`DueOutcome` lists the outcomes of `evaluateDue` with what each tells about the
journal it was decided on: nothing to do, an unusable time, a miss or an admission.
-/

namespace DawnDock

/-- The outcomes of `evaluateDue` on the journal `state`. -/
inductive DueOutcome (wallUtcSeconds monotonicSeconds : Int64) (state : PersistentAlarmState)
    (alarm : StoredAlarmDefinition) : EvaluationResult × PersistentAlarmState → Prop where
  /-- The alarm has no crossed occurrence, or the journal cannot take it. -/
  | quiet {result : EvaluationResult} (keeps : result.persistBeforeEffects = false)
      (status : result.status = .disabled ∨ result.status = .armed ∨ result.status = .duplicate ∨
        result.status = .conflict)
      (full : state.active = none → crossedNow state wallUtcSeconds alarm = true →
        canTrackTerminal state alarm.id = false) :
      DueOutcome wallUtcSeconds monotonicSeconds state alarm (result, state)
  | unusable {result : EvaluationResult} (keeps : result.persistBeforeEffects = false)
      (status : result.status = .invalidTime) (idle : state.active = none)
      (crossed : crossedNow state wallUtcSeconds alarm = true)
      (unknown : checkedElapsed wallUtcSeconds alarm.scheduledUtcSeconds = none) :
      DueOutcome wallUtcSeconds monotonicSeconds state alarm (result, state)
  | missed {result : EvaluationResult} {lateness : Int64}
      (keeps : result.persistBeforeEffects = true) (status : result.status = .missed)
      (name : result.occurrenceId = makeOccurrenceId alarm.definition)
      (idle : state.active = none) (crossed : crossedNow state wallUtcSeconds alarm = true)
      (room : canTrackTerminal state alarm.id = true)
      (elapsed : checkedElapsed wallUtcSeconds alarm.scheduledUtcSeconds = some lateness)
      (late : kLateGraceSeconds < lateness) :
      DueOutcome wallUtcSeconds monotonicSeconds state alarm
        (result, missOccurrence state alarm .forwardJump)
  | admitted {result : EvaluationResult} {lateness : Int64}
      (keeps : result.persistBeforeEffects = true) (status : result.status = .ringing)
      (name : result.occurrenceId = makeOccurrenceId alarm.definition)
      (starts : result.startAlert = true)
      (idle : state.active = none) (crossed : crossedNow state wallUtcSeconds alarm = true)
      (room : canTrackTerminal state alarm.id = true)
      (elapsed : checkedElapsed wallUtcSeconds alarm.scheduledUtcSeconds = some lateness)
      (grace : lateness ≤ kLateGraceSeconds) :
      DueOutcome wallUtcSeconds monotonicSeconds state alarm
        (result, { state with
          active := some (admittedOccurrence alarm wallUtcSeconds monotonicSeconds) })

section

variable {wallUtcSeconds monotonicSeconds : Int64} {state : PersistentAlarmState}
  {alarm : StoredAlarmDefinition} {done : EvaluationResult × PersistentAlarmState}

theorem crossedNow_iff : crossedNow state wallUtcSeconds alarm = true ↔
    alarm.enabled = true ∧ alarm.scheduledUtcSeconds ≤ wallUtcSeconds ∧
      Unjournaled state alarm := by
  simp only [crossedNow, Unjournaled, Bool.and_eq_true, Bool.not_eq_true', decide_eq_true_eq]
  tauto

theorem unrecorded_of_crossed (crossed : crossedNow state wallUtcSeconds alarm = true) :
    makeOccurrenceId alarm.definition ∉ state.terminal.map (·.occurrenceId) := by
  intro mem
  have recorded := isTerminal_iff.mpr mem
  rw [(crossedNow_iff.mp crossed).2.2.1] at recorded
  cases recorded

theorem evaluateDue_outcome (wallUtcSeconds monotonicSeconds : Int64)
    (state : PersistentAlarmState) (alarm : StoredAlarmDefinition) :
    DueOutcome wallUtcSeconds monotonicSeconds state alarm
      (evaluateDue alarm.definition state wallUtcSeconds monotonicSeconds true) := by
  simp only [evaluateDue]
  split
  · rename_i disabled
    have disabled : alarm.enabled = false := by simpa [StoredAlarmDefinition.definition] using disabled
    exact .quiet rfl (by simp) fun _ crossed => by simp [crossedNow, disabled] at crossed
  rename_i enabled
  have enabled : alarm.enabled = true := by simpa [StoredAlarmDefinition.definition] using enabled
  split
  · rename_i never
    cases never
  split
  · rename_i early
    refine .quiet rfl (by simp) fun _ crossed => ?_
    exact absurd (crossedNow_iff.mp crossed).2.1 (Int64.not_le.mpr early)
  rename_i due
  have due : alarm.scheduledUtcSeconds ≤ wallUtcSeconds := Int64.not_lt.mp due
  split
  · rename_i other
    refine .quiet rfl (by simp) fun idle _ => ?_
    rw [idle] at other
    cases other
  rename_i noConflict
  split
  · rename_i journaled
    refine .quiet rfl (by simp) fun idle crossed => ?_
    have unjournaled := (crossedNow_iff.mp crossed).2.2
    simp only [idle, Option.any_none, Bool.false_or, Bool.or_eq_true] at journaled
    rcases journaled with terminal | below
    · exact absurd (unjournaled.1.symm.trans terminal) (by simp)
    · exact absurd (unjournaled.2.symm.trans below) (by simp)
  rename_i fresh
  simp only [Bool.or_eq_true, not_or, Bool.not_eq_true] at fresh
  have idle : state.active = none := by
    cases held : state.active with
    | none => rfl
    | some active =>
        rw [held] at noConflict fresh
        simp only [Option.any_some, bne_iff_ne, ne_eq, not_not] at noConflict
        simp [noConflict] at fresh
  have crossed : crossedNow state wallUtcSeconds alarm = true :=
    crossedNow_iff.mpr ⟨enabled, due, fresh.1.2, fresh.2⟩
  split
  · rename_i full
    exact .quiet rfl (by simp) fun _ _ => by simpa [StoredAlarmDefinition.definition] using full
  rename_i room
  have room : canTrackTerminal state alarm.id = true := by simpa [StoredAlarmDefinition.definition] using room
  split
  · rename_i unknown
    exact .unusable rfl rfl idle crossed unknown
  rename_i lateness elapsed
  split
  · rename_i late
    exact .missed rfl rfl rfl idle crossed room elapsed late
  · rename_i grace
    exact .admitted rfl rfl rfl rfl idle crossed room elapsed (Int64.not_lt.mp grace)

/-- The journal accounts for the alarm's occurrence: it is active or terminal, or its
alarm's watermark covers it. -/
def Accounted (state : PersistentAlarmState) (alarm : StoredAlarmDefinition) : Prop :=
  (∃ active ∈ state.active, active.occurrenceId = makeOccurrenceId alarm.definition) ∨
    isTerminal state (makeOccurrenceId alarm.definition) = true ∨
    atOrBelowWatermark state alarm.id alarm.scheduledUtcSeconds = true

/-- Why a due occurrence cannot be journaled: another one is active, or the table of
watermarks is full. -/
def Blocked (state : PersistentAlarmState) (alarm : StoredAlarmDefinition) : Prop :=
  (∃ active ∈ state.active, active.occurrenceId ≠ makeOccurrenceId alarm.definition) ∨
    canTrackTerminal state alarm.id = false

/-- A due alarm the pass leaves alone is accounted for, or reported as a conflict. -/
theorem evaluateDue_quiet (enabled : alarm.enabled = true)
    (due : alarm.scheduledUtcSeconds ≤ wallUtcSeconds)
    (decided : evaluateDue alarm.definition state wallUtcSeconds monotonicSeconds true = done)
    (keeps : done.1.persistBeforeEffects = false) (usable : done.1.status ≠ .invalidTime) :
    Accounted state alarm ∨ (done.1.status = .conflict ∧ Blocked state alarm) := by
  subst decided
  revert keeps usable
  simp only [evaluateDue]
  split
  · rename_i disabled
    simp [StoredAlarmDefinition.definition, enabled] at disabled
  split
  · rename_i never
    cases never
  split
  · rename_i early
    exact absurd due (Int64.not_le.mpr early)
  split
  · rename_i other
    intro _ _
    obtain ⟨active, held, differs⟩ := Option.any_eq_true _ _ |>.mp other
    exact .inr ⟨rfl, .inl ⟨active, held, by simpa using differs⟩⟩
  rename_i noConflict
  split
  · rename_i journaled
    intro _ _
    left
    simp only [Bool.or_eq_true] at journaled
    rcases journaled with (active | terminal) | below
    · obtain ⟨active, held, same⟩ := Option.any_eq_true _ _ |>.mp active
      exact .inl ⟨active, held, by simpa using same⟩
    · exact .inr (.inl terminal)
    · exact .inr (.inr below)
  split
  · rename_i full
    intro _ _
    exact .inr ⟨rfl, .inr (by simpa [StoredAlarmDefinition.definition] using full)⟩
  split
  · intro _ usable
    exact absurd rfl usable
  · intro keeps _
    split at keeps <;> cases keeps

theorem DueOutcome.kept (outcome : DueOutcome wallUtcSeconds monotonicSeconds state alarm done)
    (keeps : done.1.persistBeforeEffects = false) : done.2 = state := by
  cases outcome with
  | quiet | unusable => rfl
  | missed persists | admitted persists =>
      rw [keeps] at persists
      cases persists

/-- What a due pass journals was crossed, and nothing was active. -/
theorem DueOutcome.crossed (outcome : DueOutcome wallUtcSeconds monotonicSeconds state alarm done)
    (acts : done.1.status = .invalidTime ∨ done.1.persistBeforeEffects = true) :
    state.active = none ∧ crossedNow state wallUtcSeconds alarm = true := by
  cases outcome with
  | quiet keeps status =>
      rcases acts with unusable | persists
      · rcases status with status | status | status | status
        all_goals
          rw [status] at unusable
          cases unusable
      · rw [keeps] at persists
        cases persists
  | unusable _ _ idle crossed | missed _ _ _ idle crossed | admitted _ _ _ _ idle crossed =>
      exact ⟨idle, crossed⟩

/-- An unusable time is a lateness that cannot be represented. -/
theorem DueOutcome.unknown (outcome : DueOutcome wallUtcSeconds monotonicSeconds state alarm done)
    (status : done.1.status = .invalidTime) :
    checkedElapsed wallUtcSeconds alarm.scheduledUtcSeconds = none := by
  cases outcome with
  | quiet _ usual =>
      rw [status] at usual
      simp at usual
  | missed _ usual | admitted _ usual =>
      rw [status] at usual
      cases usual
  | unusable _ _ _ _ unknown => exact unknown

/-- A crossed alarm the pass leaves alone cannot be tracked. -/
theorem DueOutcome.full (outcome : DueOutcome wallUtcSeconds monotonicSeconds state alarm done)
    (keeps : done.1.persistBeforeEffects = false) (usable : done.1.status ≠ .invalidTime)
    (idle : state.active = none) (crossed : crossedNow state wallUtcSeconds alarm = true) :
    canTrackTerminal state alarm.id = false := by
  cases outcome with
  | quiet _ _ full => exact full idle crossed
  | unusable _ status => exact absurd status usable
  | missed persists | admitted persists =>
      rw [keeps] at persists
      cases persists

/-- What the pass journals: a miss beyond the grace, an admission within it. -/
theorem DueOutcome.journals (outcome : DueOutcome wallUtcSeconds monotonicSeconds state alarm done)
    (persists : done.1.persistBeforeEffects = true) :
    canTrackTerminal state alarm.id = true ∧ ∃ lateness,
      checkedElapsed wallUtcSeconds alarm.scheduledUtcSeconds = some lateness ∧
      ((kLateGraceSeconds < lateness ∧ done.1.status = .missed ∧
          done.2 = missOccurrence state alarm .forwardJump) ∨
        (lateness ≤ kLateGraceSeconds ∧ done.1.status = .ringing ∧ done.2 = { state with
          active := some (admittedOccurrence alarm wallUtcSeconds monotonicSeconds) })) := by
  cases outcome with
  | quiet keeps | unusable keeps =>
      rw [keeps] at persists
      cases persists
  | missed _ status _ _ _ room elapsed late =>
      exact ⟨room, _, elapsed, .inl ⟨late, status, rfl⟩⟩
  | admitted _ status _ _ _ _ room elapsed grace =>
      exact ⟨room, _, elapsed, .inr ⟨grace, status, rfl⟩⟩

/-- The schedule changes nothing while an occurrence is active. -/
theorem evaluateDue_busy (busy : state.active ≠ none) :
    (evaluateDue alarm.definition state wallUtcSeconds monotonicSeconds true).2 = state := by
  have outcome := evaluateDue_outcome wallUtcSeconds monotonicSeconds state alarm
  generalize evaluateDue alarm.definition state wallUtcSeconds monotonicSeconds true = done
    at outcome
  cases outcome with
  | quiet | unusable => rfl
  | missed _ _ _ idle | admitted _ _ _ _ idle => exact absurd idle busy

end

end DawnDock
