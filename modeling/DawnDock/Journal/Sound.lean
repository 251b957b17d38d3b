import DawnDock.Library.MachineInt
import DawnDock.Journal.Step

/-!
What the alert output should be doing.

`ringing` is the occurrence a journal wants to hear; `soundAfter` folds alert
edges into the occurrence the output plays.

* `TickStep.sounds`, `ControlStep.sounds`: a step's edges turn the sound of the old
  journal into the sound of the new one. The one exception is an occurrence that
  expired while the power was off, whose sound ended with the power.
* `TickStep.rings`: a journal that rings after a step was started by it.
* `TickSteps.startsLast`: within one observation no edge follows a start, because
  nothing can happen to an occurrence that has just begun to ring (`Quiet`).
-/

namespace DawnDock

/-! ### Sound -/

/-- The occurrence a journal rings for: the active one, unless it is snoozed. -/
def ringing (journal : PersistentAlarmState) : Option Text :=
  journal.active.bind fun active =>
    if active.snoozeDeadlineMonotonicSeconds.isNone then some active.occurrenceId else none

def AlertEdge.apply (_sound : Option Text) : AlertEdge → Option Text
  | .start occurrenceId => some occurrenceId
  | .stop _ => none

/-- What the output plays after the edges. -/
def soundAfter (sound : Option Text) (edges : List AlertEdge) : Option Text :=
  edges.foldl AlertEdge.apply sound

@[simp] theorem soundAfter_nil (sound : Option Text) : soundAfter sound [] = sound := rfl

@[simp] theorem soundAfter_start (sound : Option Text) (occurrenceId : Text) :
    soundAfter sound [.start occurrenceId] = some occurrenceId := rfl

@[simp] theorem soundAfter_stop (sound : Option Text) (occurrenceId : Text) :
    soundAfter sound [.stop occurrenceId] = none := rfl

theorem soundAfter_append (sound : Option Text) (edges more : List AlertEdge) :
    soundAfter sound (edges ++ more) = soundAfter (soundAfter sound edges) more :=
  List.foldl_append

/-- The last edge decides. -/
theorem soundAfter_of_ne_nil {edges : List AlertEdge} (h : edges ≠ []) (sound other : Option Text) :
    soundAfter sound edges = soundAfter other edges := by
  cases edges with
  | nil => exact absurd rfl h
  | cons edge rest => cases edge <;> rfl

theorem ringing_idle {journal : PersistentAlarmState} (idle : journal.active = none) :
    ringing journal = none := by
  rw [ringing, idle]
  rfl

/-! ### Steps and their sound -/

section

variable {alarms : List StoredAlarmDefinition} {observation : RuntimeTickObservation}
  {state final : PersistentAlarmState} {edges : List AlertEdge}

theorem missOccurrence_idle {alarm : StoredAlarmDefinition} (idle : state.active = none)
    (reason : TerminalReason) : (missOccurrence state alarm reason).active = none := by
  rw [missOccurrence, appendTerminal_active]
  exact idle

/-- The output follows a step that is no recovery after a reboot. -/
theorem TickStep.sounds (step : TickStep alarms observation state edges final)
    (booted : observation.bootId = []) :
    soundAfter (ringing state) edges = ringing final := by
  cases step with
  | admitted eligible => rfl
  | missed reason eligible =>
      rw [ringing_idle (missOccurrence_idle eligible.idle reason), ringing_idle eligible.idle]
      rfl
  | timedOut held => rfl
  | rerung held => rfl
  | recovered held boot => exact absurd booted boot
  | expired held boot => exact absurd booted boot

theorem TickSteps.sounds (steps : TickSteps alarms observation state edges final)
    (booted : observation.bootId = []) :
    soundAfter (ringing state) edges = ringing final := by
  induction steps with
  | nil => rfl
  | cons step rest ih => rw [soundAfter_append, step.sounds booted, ih]

theorem ControlStep.sounds (step : ControlStep state edges final) :
    soundAfter (ringing state) edges = ringing final := by
  cases step with
  | snoozed held => rfl
  | dismissed reason held => rfl

/-- Whatever was played before, a step that leaves the journal ringing starts it. -/
theorem TickStep.rings (step : TickStep alarms observation state edges final)
    {occurrenceId : Text} (rings : ringing final = some occurrenceId) (sound : Option Text) :
    soundAfter sound edges = some occurrenceId := by
  cases step with
  | admitted eligible => exact rings
  | missed reason eligible =>
      rw [ringing_idle (missOccurrence_idle eligible.idle reason)] at rings
      cases rings
  | timedOut held => cases rings
  | rerung held => exact rings
  | recovered held => exact rings
  | expired held => cases rings

/-! ### Boots -/

/-- The boot id an active occurrence was last recovered in. -/
def LastRecovery (P : Text → Prop) (journal : PersistentAlarmState) : Prop :=
  ∀ active ∈ journal.active, P active.lastRecoveryBootId

/-- Every active occurrence of the journal was recovered in this boot. -/
def Recovered (bootId : Text) : PersistentAlarmState → Prop := LastRecovery (· = bootId)

/-- No occurrence of the journal was recovered in this boot. -/
def Unrecovered (bootId : Text) : PersistentAlarmState → Prop := LastRecovery (· ≠ bootId)

theorem Recovered.idle {bootId : Text} {journal : PersistentAlarmState}
    (recovered : Recovered bootId journal) (unrecovered : Unrecovered bootId journal) :
    journal.active = none := by
  cases held : journal.active with
  | none => rfl
  | some active => exact absurd (recovered active held) (unrecovered active held)

/-- A step that leaves the journal silent recovers nothing. -/
theorem TickStep.unrecovered (step : TickStep alarms observation state edges final)
    {bootId : Text} (silent : ringing final = none) : Unrecovered bootId final := by
  cases step with
  | admitted eligible => cases silent
  | missed reason eligible =>
      intro active held
      rw [missOccurrence_idle eligible.idle reason] at held
      cases held
  | timedOut held =>
      intro active held
      cases held
  | rerung held => cases silent
  | recovered held => cases silent
  | expired held =>
      intro active held
      cases held

/-! ### Nothing follows a start -/

/-- No step of this observation applies: the occurrence rings and lives. -/
def Quiet (observation : RuntimeTickObservation) (journal : PersistentAlarmState) : Prop :=
  ∃ active, journal.active = some active ∧ active.snoozeDeadlineMonotonicSeconds = none ∧
    ¬ LifetimeOver active observation.monotonicSeconds

theorem TickStep.not_quiet (step : TickStep alarms observation state edges final)
    (booted : observation.bootId = []) : ¬ Quiet observation state := by
  rintro ⟨active, held, unsnoozed, lives⟩
  cases step with
  | admitted eligible =>
      rw [eligible.idle] at held
      cases held
  | missed reason eligible =>
      rw [eligible.idle] at held
      cases held
  | timedOut held' past =>
      obtain rfl := Option.some.inj (held.symm.trans held')
      exact lives past
  | rerung held' _ snoozed =>
      obtain rfl := Option.some.inj (held.symm.trans held')
      rw [unsnoozed] at snoozed
      cases snoozed
  | recovered _ boot => exact boot booted
  | expired _ boot => exact boot booted

theorem checkedElapsed_eq {now start elapsed : Int64}
    (h : checkedElapsed now start = some elapsed) : elapsed = now - start := by
  unfold checkedElapsed at h
  split at h
  · cases h
  · exact (Option.some.inj h).symm

/-- The elapsed time between ordered readings. -/
theorem checkedElapsed_of_le {now start : Int64} (le : start.toInt ≤ now.toInt)
    (fits : now.toInt - start.toInt < 2 ^ 63) :
    ∃ elapsed, checkedElapsed now start = some elapsed ∧
      elapsed.toInt = now.toInt - start.toInt := by
  have exact : (now - start).toInt = now.toInt - start.toInt :=
    MachineInt.toInt_sub ⟨by omega, fits⟩
  refine ⟨now - start, ?_, exact⟩
  rw [checkedElapsed, if_neg]
  rintro (before | ⟨negative, beyond⟩)
  · have := Int64.lt_iff_toInt_lt.mp before
    omega
  · have low := start.le_toInt
    have sign : start.toInt < 0 := Int64.lt_iff_toInt_lt.mp negative
    have top : Int64.maxValue.toInt = 2 ^ 63 - 1 := rfl
    have sum : (Int64.maxValue + start).toInt = Int64.maxValue.toInt + start.toInt :=
      MachineInt.toInt_add ⟨by omega, by omega⟩
    have := Int64.lt_iff_toInt_lt.mp beyond
    omega

/-- An elapsed time is exact. -/
theorem toInt_of_checkedElapsed {now start elapsed : Int64}
    (h : checkedElapsed now start = some elapsed) :
    elapsed.toInt = now.toInt - start.toInt ∧ start.toInt ≤ now.toInt := by
  rw [checkedElapsed_eq h]
  have inRange : ¬ (now < start ∨ (start < 0 ∧ now > Int64.maxValue + start)) := by
    intro out
    rw [checkedElapsed, if_pos out] at h
    cases h
  simp only [not_or, not_and, Int64.not_lt] at inRange
  have ordered := Int64.le_iff_toInt_le.mp inRange.1
  have low := start.le_toInt
  have high := now.toInt_lt
  refine ⟨MachineInt.toInt_sub ⟨by omega, ?_⟩, ordered⟩
  by_cases negative : start.toInt < 0
  · have top : Int64.maxValue.toInt = 2 ^ 63 - 1 := rfl
    have sum : (Int64.maxValue + start).toInt = Int64.maxValue.toInt + start.toInt :=
      MachineInt.toInt_add ⟨by omega, by omega⟩
    have below := Int64.le_iff_toInt_le.mp (inRange.2 (Int64.lt_iff_toInt_lt.mpr negative))
    omega
  · omega

/-- An occurrence whose ring began less than a lifetime ago lives. -/
theorem lives_of_anchor {active : ActiveOccurrence} {monotonicSeconds elapsed : Int64}
    (anchor : active.firstRingMonotonicSeconds = monotonicSeconds - elapsed)
    (short : elapsed < kOccurrenceLifetimeSeconds) : ¬ LifetimeOver active monotonicSeconds := by
  rintro ⟨since, known, past⟩
  have same := checkedElapsed_eq known
  rw [anchor] at same
  have same : since = elapsed := by
    rw [same]
    grind
  rw [same] at past
  exact absurd past (Int64.not_le.mpr short)

theorem TickStep.quiet (step : TickStep alarms observation state edges final)
    (booted : observation.bootId = []) {occurrenceId : Text}
    (start : AlertEdge.start occurrenceId ∈ edges) : Quiet observation final := by
  cases step with
  | admitted eligible =>
      refine ⟨_, rfl, rfl, @lives_of_anchor _ _ 0 ?_ (by decide)⟩
      simp [admittedOccurrence]
  | missed reason eligible => cases start
  | timedOut held _ => simp at start
  | rerung held lives => exact ⟨_, rfl, rfl, lives⟩
  | recovered _ boot => exact absurd booted boot
  | expired _ boot => exact absurd booted boot

theorem TickStep.length_edges (step : TickStep alarms observation state edges final) :
    edges.length ≤ 1 := by
  cases step <;> simp

/-- Every edge that another follows is a stop. -/
def StartsLast (edges : List AlertEdge) : Prop :=
  edges.Pairwise fun earlier _ => ∃ occurrenceId, earlier = .stop occurrenceId

theorem startsLast_of_length {edges : List AlertEdge} (h : edges.length ≤ 1) :
    StartsLast edges := by
  match edges, h with
  | [], _ => exact .nil
  | [edge], _ => exact List.pairwise_singleton _ _

theorem StartsLast.append {more : List AlertEdge} (first : StartsLast edges)
    (second : StartsLast more)
    (ends : ∀ occurrenceId, AlertEdge.start occurrenceId ∈ edges → more = []) :
    StartsLast (edges ++ more) := by
  refine List.pairwise_append.mpr ⟨first, second, fun earlier mem later mem' => ?_⟩
  cases earlier with
  | stop occurrenceId => exact ⟨occurrenceId, rfl⟩
  | start occurrenceId =>
      rw [ends occurrenceId mem] at mem'
      cases mem'

theorem TickSteps.of_quiet (steps : TickSteps alarms observation state edges final)
    (booted : observation.bootId = []) (quiet : Quiet observation state) :
    edges = [] ∧ final = state := by
  cases steps with
  | nil => exact ⟨rfl, rfl⟩
  | cons step rest => exact absurd quiet (step.not_quiet booted)

/-- Within one observation every start is the last edge, and the journal is quiet
after it. -/
theorem TickSteps.startsLast (steps : TickSteps alarms observation state edges final)
    (booted : observation.bootId = []) : StartsLast edges ∧
      ∀ occurrenceId, AlertEdge.start occurrenceId ∈ edges → Quiet observation final := by
  induction steps with
  | nil => exact ⟨.nil, by simp⟩
  | cons step rest ih =>
      obtain ⟨ordered, quiet⟩ := ih
      refine ⟨(startsLast_of_length step.length_edges).append ordered fun occurrenceId start =>
        (rest.of_quiet booted (step.quiet booted start)).1, fun occurrenceId start => ?_⟩
      rcases List.mem_append.mp start with start | start
      · have now := step.quiet booted start
        rwa [(rest.of_quiet booted now).2]
      · exact quiet occurrenceId start

end

/-! ### Settling a boot -/

/-- What a persisted recovery does: the occurrence was not recovered in this boot,
it is now, and it rings or is gone. -/
theorem settleTransition_boot {state : PersistentAlarmState}
    {observation : RuntimeTickObservation}
    (persists : (settleTransition state observation true).1.persistBeforeEffects = true) :
    let done := settleTransition state observation true
    ¬ Recovered observation.bootId state ∧ Recovered observation.bootId done.2 ∧
      done.1.edges.length ≤ 1 ∧ soundAfter none done.1.edges = ringing done.2 ∧
      ∀ occurrenceId, AlertEdge.start occurrenceId ∈ done.1.edges → Quiet observation done.2 := by
  revert persists
  simp only [settleTransition, if_true]
  cases held : state.active with
  | none => simp [recoverAfterReboot, held]
  | some active =>
      simp only [recoverAfterReboot, held]
      split
      · simp
      rename_i fresh
      have unrecovered : ¬ Recovered observation.bootId state := fun recovered =>
        fresh (beq_iff_eq.mpr (recovered active held))
      split
      · simp [invalidTimeResult]
      rename_i elapsed known
      split
      · intro _
        refine ⟨unrecovered, ?_, by simp [EvaluationResult.edges, alertEdges], rfl, ?_⟩
        · simp [Recovered, LastRecovery, reanchorActive, closeActive]
        · simp [EvaluationResult.edges, alertEdges]
      · rename_i lives
        intro _
        refine ⟨unrecovered, ?_, by simp [EvaluationResult.edges, alertEdges], rfl, ?_⟩
        · simp [Recovered, LastRecovery, reanchorActive]
        · intro _ _
          refine ⟨_, rfl, rfl, @lives_of_anchor _ _ elapsed ?_ (Int64.not_le.mp lives)⟩
          rw [checkedElapsed_eq known]

end DawnDock
