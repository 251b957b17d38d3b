import DawnDock.Clients.Interleaving

/-!
`disable_committed_alarm` beside other clients.

The dismissal is guarded by the generation, the schedule save by the revision only.
Between the two nothing keeps another client from admitting an occurrence of the
alarm, and the save carries the journal it meets along.

* `disable_silences`: what a disable that reports success leaves, in any
  interleaving: a disabled alarm, and a silent one unless an occurrence was admitted
  before its last operation.
* `disable_admitted_between`: an evaluation in between leaves it ringing.
-/

namespace DawnDock

open AtomicProgram

/-! ### The record a disable leaves -/

/-- The record has the alarm, disabled. -/
structure AlarmDisabled (alarmId : Text) (current : Register) : Prop where
  loaded : current.status = .loaded
  present : alarmId ∈ current.snapshot.alarms.map (·.id)
  disabled : ∀ alarm ∈ current.snapshot.alarms, alarm.id = alarmId → alarm.enabled = false

/-- No occurrence of the alarm is active. -/
def Silent (alarmId : Text) (current : Register) : Prop :=
  ∀ active ∈ current.journal.active, active.alarmId ≠ alarmId

/-- What the claim of a successful disable is: the alarm is off and nothing of it
is active. -/
def Silenced (alarmId : Text) (current : Register) : Prop :=
  AlarmDisabled alarmId current ∧ Silent alarmId current

/-- The call makes an occurrence of the alarm active. -/
def Admits (alarmId : Text) (e : StoreEvent) : Prop :=
  Silent alarmId e.before ∧ ¬ Silent alarmId e.after

/-- The call saves a schedule. -/
def SavesSchedule (e : StoreEvent) : Prop := ∃ snapshot revision, e.call = .save snapshot revision

theorem silent_of_idle {alarmId : Text} {current : Register} (idle : current.journal.active = none) :
    Silent alarmId current := by
  intro active held
  rw [idle] at held
  cases held

theorem alarmDisabled_disabledSnapshot {alarmId : Text} {snapshot : ScheduleSnapshot}
    {current : Register} (loaded : current.status = .loaded)
    (present : alarmId ∈ snapshot.alarms.map (·.id))
    (saved : current.snapshot.alarms = (disabledSnapshot snapshot alarmId).alarms) :
    AlarmDisabled alarmId current where
  loaded := loaded
  present := by
    obtain ⟨alarm, mem, rfl⟩ := List.mem_map.mp present
    rw [saved]
    refine List.mem_map.mpr ⟨{ alarm with enabled := false }, ?_, rfl⟩
    exact List.mem_map.mpr ⟨alarm, mem, if_pos rfl⟩
  disabled alarm mem same := by
    rw [saved] at mem
    obtain ⟨original, -, rfl⟩ := List.mem_map.mp mem
    by_cases target : original.id = alarmId
    · rw [if_pos target]
    · rw [if_neg target] at same
      exact absurd same target

/-! ### The calls of a disable -/


/-- The calls of a disable that reports success: it ends with the schedule save, after a
call that left the alarm silent, or with the dismissal. -/
structure DisableCalls (alarmId : Text) (load : StoreEvent) (middle : StoreLog)
    (last : StoreEvent) : Prop where
  disabled : AlarmDisabled alarmId last.after
  ends : (SavesSchedule last ∧ last.after.journal = last.before.journal ∧
      ∃ quiet ∈ load :: middle, Silent alarmId quiet.after) ∨
    (¬ SavesSchedule last ∧ Silent alarmId last.after)

/-- What phase one leaves behind the load: nothing to dismiss, or the dismissal. -/
def DismissCalls (alarmId : Text) (loaded : LoadResult) (load : StoreEvent) :
    Except CommittedAlarmDisableResult CommittedAlarmDisableResult → StoreLog → Prop
  | .error final, _ => final.status ≠ .disabled
  | .ok result, log =>
      (log = [load] ∧ result.journalCommitted = false ∧ Silent alarmId load.after) ∨
        ∃ dismissal, log = [load, dismissal] ∧ dismissal.after.status = .loaded ∧
          dismissal.after.snapshot.alarms = loaded.snapshot.alarms ∧
          Silent alarmId dismissal.after ∧ ¬ SavesSchedule dismissal

theorem failedDisableStatus_ne (status : StoreStatus) : failedDisableStatus status ≠ .disabled := by
  unfold failedDisableStatus
  split <;> simp

section

variable {alarmId : Text} {loaded : LoadResult} {load : StoreEvent}

theorem meets_dismissForDisable_calls {result : CommittedAlarmDisableResult}
    (sees : load.after = loaded) (isLoaded : loaded.status = .loaded)
    (fresh : result.journalCommitted = false) :
    Meets StoreRely (DismissCalls alarmId loaded load) (dismissForDisable alarmId loaded result)
      [load] := by
  have journal : load.after.journal = loaded.snapshot.occurrenceState := by
    rw [sees, Register.journal_of_loaded isLoaded]
  unfold dismissForDisable
  split
  · rename_i idle
    exact .inl ⟨rfl, fresh, silent_of_idle (journal ▸ idle)⟩
  rename_i active held
  split
  · rename_i other
    refine .inl ⟨rfl, fresh, fun a mem => ?_⟩
    rw [journal, held] at mem
    obtain rfl : active = a := Option.some.inj mem
    exact other
  dsimp only
  rw [dismissActive_held held]
  simp only [Bool.not_true, Bool.or_self, Bool.false_eq_true, if_false]
  have step := dismissActive_transition loaded.snapshot.occurrenceState active.occurrenceId true
  rw [dismissActive_held held] at step
  have planned : Plans loaded.snapshot ⟨true, 0, 0, []⟩ .disable _ _ := .control rfl step rfl
  have seen : Sees [load] loaded.snapshot loaded.generation :=
    ⟨load, rfl, by rw [sees]; exact isLoaded, by rw [sees], by rw [sees]⟩
  refine Meets.issue fun before committed after rely => ?_
  obtain ⟨-, landed⟩ := @meets_saveOccurrenceState _ (· = .disable) _ _ _ _ _ _ seen rfl planned
    before committed after rely
  by_cases confirmed : committed.status.committed = true
  · simp only [confirmed, Bool.not_true, Bool.false_eq_true, if_false]
    obtain ⟨event, last, eventLoaded, snapshot, -⟩ := landed confirmed
    rw [List.getLast?_concat] at last
    obtain rfl := Option.some.inj last
    refine .inr ⟨_, rfl, eventLoaded, by rw [snapshot], silent_of_idle ?_, ?_⟩
    · rw [Register.journal_of_loaded eventLoaded, snapshot]
      rfl
    · rintro ⟨_, _, call⟩
      cases call
  · have failed : committed.status.committed = false := by simpa using confirmed
    simp only [failed, Bool.not_false, if_true]
    exact failedDisableStatus_ne _

theorem meets_saveDisabled_calls {enabled : Bool} {result : CommittedAlarmDisableResult}
    {log : StoreLog} (isLoaded : load.after.status = .loaded)
    (present : alarmId ∈ loaded.snapshot.alarms.map (·.id))
    (off : enabled = false → ∀ alarm ∈ loaded.snapshot.alarms, alarm.id = alarmId →
      alarm.enabled = false)
    (dismissed : DismissCalls alarmId loaded load (.ok result) log) :
    Meets StoreRely (fun final log' => final.status = .disabled →
      ∃ middle last, log' = load :: (middle ++ [last]) ∧ DisableCalls alarmId load middle last)
      (saveDisabled alarmId loaded enabled result) log := by
  unfold saveDisabled
  split
  · rename_i wasOff
    intro disabled
    rcases dismissed with ⟨-, fresh, -⟩ | ⟨dismissal, rfl, isLoaded, alarms, silent, save⟩
    · simp only [fresh, Bool.false_eq_true, if_false] at disabled
      cases disabled
    · refine ⟨[], dismissal, rfl, ⟨isLoaded, ?_, ?_⟩, .inr ⟨save, silent⟩⟩
      · rwa [alarms]
      · rw [alarms]
        exact off (by simpa using wasOff)
  dsimp only
  split
  · intro disabled
    cases disabled
  refine Meets.issue fun before committed after rely => ?_
  obtain ⟨faults, answer⟩ := rely.answered
  split
  · rename_i confirmed
    intro _
    -- Whatever phase one did, its last call left the alarm silent.
    have quiet : ∃ middle, log = load :: middle ∧ ∃ quiet ∈ log, Silent alarmId quiet.after := by
      rcases dismissed with ⟨rfl, -, silent⟩ | ⟨dismissal, rfl, -, -, silent, -⟩
      · exact ⟨[], rfl, load, by simp, silent⟩
      · exact ⟨[dismissal], rfl, dismissal, by simp, silent⟩
    obtain ⟨middle, rfl, quiet⟩ := quiet
    have beforeLoaded := (rely.evolved load List.mem_cons_self isLoaded).loaded
    have saved := @performRegister_save faults before (disabledSnapshot loaded.snapshot alarmId)
      loaded.snapshot.revision beforeLoaded (by rw [answer]; exact confirmed)
    rw [answer] at saved
    obtain ⟨afterLoaded, snapshot⟩ := saved
    refine ⟨middle, _, rfl, ?_, .inl ⟨⟨_, _, rfl⟩, ?_, quiet⟩⟩
    · exact alarmDisabled_disabledSnapshot afterLoaded present (by rw [snapshot])
    · rw [Register.journal_of_loaded afterLoaded, Register.journal_of_loaded beforeLoaded,
        snapshot]
  · intro disabled
    exact absurd disabled (failedDisableStatus_ne _)

/-- The calls of a disable that reports success, whatever the other clients do. -/
theorem meets_disableCommittedAlarm_calls (alarmId : Text) :
    Meets StoreRely (fun final log => final.status = .disabled →
      ∃ load middle last, log = load :: (middle ++ [last]) ∧
        DisableCalls alarmId load middle last) (disableCommittedAlarm alarmId) [] := by
  unfold disableCommittedAlarm
  refine Meets.issue fun before loaded after rely => ?_
  split
  · intro disabled
    dsimp only at disabled
    unfold unloadedDisableStatus at disabled
    repeat' split at disabled
    all_goals cases disabled
  rename_i isLoaded
  have isLoaded := not_not.mp isLoaded
  obtain ⟨rfl, rfl⟩ := rely.load isLoaded
  have ids := (validateSnapshot_iff.mp (rely.valid isLoaded)).1.ids
  dsimp only
  split
  · intro disabled
    cases disabled
  rename_i target found
  have mem := List.mem_of_find?_eq_some found
  have named : target.id = alarmId := by simpa using List.find?_some found
  have phaseOne : Meets StoreRely (DismissCalls alarmId after ⟨after, .load, after, after⟩)
      (dismissForDisable alarmId after
        { scheduleRevision := after.snapshot.revision, generation := after.generation })
      [⟨after, .load, after, after⟩] := meets_dismissForDisable_calls rfl isLoaded rfl
  refine phaseOne.bind ?_
  rintro (final | result) log progress
  · exact fun disabled => absurd disabled progress
  · refine (meets_saveDisabled_calls isLoaded (List.mem_map.mpr ⟨target, mem, named⟩) ?_
      progress).post ?_
    · intro off alarm mem' same
      have : alarm = target := List.inj_on_of_nodup_map ids mem' mem (same.trans named.symm)
      rw [this, off]
    · rintro final log' calls disabled
      obtain ⟨middle, last, whole, calls⟩ := calls disabled
      exact ⟨_, middle, last, whole, calls⟩

end

/-! ### Any interleaving -/

/-- From a call that left the alarm silent, only an admission ends the silence. -/
theorem silent_of_linked {alarmId : Text} {s t : Register} {events : StoreLog}
    (linked : Linked s events t) (silent : Silent alarmId s)
    (admitsNone : ∀ e ∈ events, ¬ Admits alarmId e) : Silent alarmId t :=
  linked.invariant silent fun e mem before => by
    by_contra after
    exact admitsNone e mem ⟨before, after⟩

/-- A disable beside any other clients of a healthy store. When it reports success, the
alarm is disabled in the record its last operation left; and none of its occurrences
is active there exactly if that operation is the dismissal or meets a record without
one. So it is whenever no call between its load and its last operation admits an
occurrence of the alarm. -/
theorem disable_silences {κ : Type} [DecidableEq κ] {β : κ → Type} (alarmId : Text)
    (others : Pool StoreReply β) (schedule : List (Option κ)) (slots : Slots) :
    let run := runPool (performStore {}) schedule slots
      (beside (disableCommittedAlarm alarmId) others)
    let trace := run.1.map fun e => (e.1, e.2.mapState scanSlots)
    (run.2.2 none).result?.map CommittedAlarmDisableResult.status = some .disabled →
    ∃ earlier load between last later,
      trace = earlier ++ (none, load) :: (between ++ (none, last) :: later) ∧
      ownLog none earlier = [] ∧ ownLog none later = [] ∧
      (Silenced alarmId last.after ↔ (SavesSchedule last → Silent alarmId last.before)) ∧
      ((∀ e ∈ between, ¬ Admits alarmId e.2) → Silenced alarmId last.after) := by
  intro run trace finished
  obtain ⟨result, returned, disabled⟩ := Option.map_eq_some_iff.mp finished
  have answers := (performStore_serves {}).along_runPool schedule slots
    (beside (disableCommittedAlarm alarmId) others) none
  have done := Meets.runPool scanSlots (meets_disableCommittedAlarm_calls alarmId) answers
  rw [Program.result?_eq_some.mp returned, List.nil_append] at done
  obtain ⟨load, middle, last, own, calls⟩ := done disabled
  rw [← ownLog_mapState, ← List.nil_append (load :: _)] at own
  obtain ⟨earlier, rest, (whole : trace = _), before, restOwn⟩ := ownLog_eq_append_cons own
  obtain ⟨between, later, rfl, inBetween, after⟩ := ownLog_eq_append_cons restOwn
  have linked := (runPool_linked (performStore {}) schedule slots
    (beside (disableCommittedAlarm alarmId) others)).mapState scanSlots
  have events : (run.1.map Prod.snd).map (Event.mapState scanSlots) = trace.map Prod.snd := by
    simp only [trace, List.map_map, Function.comp_def]
  rw [events, whole, List.map_append, List.map_cons, List.map_append, List.map_cons] at linked
  obtain ⟨_, -, -, linked⟩ := linked_append.mp linked
  obtain ⟨_, linked, rfl, -⟩ := linked_append.mp linked
  refine ⟨earlier, load, between, last, later, whole, before, after, ?_, fun admitsNone => ?_⟩
  · rcases calls.ends with ⟨saves, kept, -⟩ | ⟨dismisses, silent⟩
    · have same : Silent alarmId last.after ↔ Silent alarmId last.before := by
        rw [Silent, kept, Silent]
      exact ⟨fun silenced _ => same.mp silenced.2, fun met => ⟨calls.disabled, same.mpr (met saves)⟩⟩
    · exact ⟨fun _ saves => absurd saves dismisses, fun _ => ⟨calls.disabled, silent⟩⟩
  · refine ⟨calls.disabled, ?_⟩
    rcases calls.ends with ⟨-, kept, quiet, mem, silent⟩ | ⟨-, silent⟩
    swap
    · exact silent
    rw [Silent, kept]
    rcases List.mem_cons.mp mem with rfl | mem
    · refine silent_of_linked linked silent fun e he => ?_
      obtain ⟨event, mem, rfl⟩ := List.mem_map.mp he
      exact admitsNone event mem
    · obtain ⟨first, second, rfl⟩ := List.append_of_mem (mem_ownLog.mp (inBetween ▸ mem))
      rw [List.map_append, List.map_cons] at linked
      obtain ⟨_, -, -, linked⟩ := linked_append.mp linked
      refine silent_of_linked linked silent fun e he => ?_
      obtain ⟨event, mem, rfl⟩ := List.mem_map.mp he
      exact admitsNone event (List.mem_append_right _ (List.mem_cons_of_mem _ mem))

/-! ### The window between load and save -/

/-- The one alarm is disabled while the evaluator looks at it at its instant. -/
def besideEvaluator : Pool StoreReply
    (Beside CommittedAlarmDisableResult fun _ : Unit => CommittedScheduleEvaluation) :=
  beside (disableCommittedAlarm [0x77]) fun _ => evaluateCommittedSchedule 1000 5 true []

/-- The run on the one-alarm store, as a run of the register. -/
theorem runPool_oneAlarmStore (schedule : List (Option Unit)) :
    let run := runPool (performStore {}) schedule oneAlarmStore besideEvaluator
    let register := runPool (performRegister {}) schedule
      { status := .loaded, snapshot := oneAlarmSchedule, generation := 1 } besideEvaluator
    register.1 = (run.1.map fun e => (e.1, e.2.mapState scanSlots)) ∧ register.2.2 = run.2.2 := by
  intro run register
  have sim := (performStore_simulates {}).runPool schedule oneAlarmStore besideEvaluator
  rw [scanSlots_oneAlarmStore] at sim
  exact ⟨congrArg Prod.fst sim, congrArg (fun final => final.2.2) sim⟩

/-- The evaluator rings first; the disable dismisses the occurrence and saves. -/
theorem disable_silences_ringing :
    let run := runPool (performStore {}) [some (), some (), none, none, none] oneAlarmStore
      besideEvaluator
    let trace := run.1.map fun e => (e.1, e.2.mapState scanSlots)
    ∃ earlier load between last later,
      trace = earlier ++ (none, load) :: (between ++ (none, last) :: later) ∧
      ownLog none earlier = [] ∧ ownLog none later = [] ∧
      (Silenced [0x77] last.after ↔ (SavesSchedule last → Silent [0x77] last.before)) ∧
      ((∀ e ∈ between, ¬ Admits [0x77] e.2) → Silenced [0x77] last.after) :=
  disable_silences [0x77] (fun _ : Unit => evaluateCommittedSchedule 1000 5 true [])
    [some (), some (), none, none, none] oneAlarmStore (by
      have same := (runPool_oneAlarmStore [some (), some (), none, none, none]).2
      dsimp only [besideEvaluator] at same
      rw [← same]
      decide +kernel)

/-- The evaluator admits the occurrence between the load and the save: the disable
reports success and its save leaves the alarm ringing. -/
theorem disable_admitted_between :
    let run := runPool (performStore {}) [none, some (), some (), none] oneAlarmStore
      besideEvaluator
    let trace := run.1.map fun e => (e.1, e.2.mapState scanSlots)
    (run.2.2 none).result?.map CommittedAlarmDisableResult.status = some .disabled ∧
      ∃ last, (ownLog none trace).getLast? = some last ∧ ¬ Silenced [0x77] last.after := by
  intro run trace
  obtain ⟨sameTrace, samePrograms⟩ := runPool_oneAlarmStore [none, some (), some (), none]
  constructor
  · change (run.2.2 none).result?.map _ = _
    rw [← samePrograms]
    decide +kernel
  · have active : ((ownLog none trace).getLast?.bind fun last => last.after.journal.active).map
        ActiveOccurrence.alarmId = some [0x77] := by
      change ((ownLog none (run.1.map _)).getLast?.bind _).map _ = _
      rw [← sameTrace]
      decide +kernel
    obtain ⟨held, found, named⟩ := Option.map_eq_some_iff.mp active
    obtain ⟨last, isLast, rings⟩ := Option.bind_eq_some_iff.mp found
    exact ⟨last, isLast, fun silenced => silenced.2 held rings named⟩

end DawnDock
