import DawnDock.Clients.Device

/-!
A single writer.

While one client has the store to itself, each of its calls starts at the record
the call before it left. Its run is then a chain (`SoloRun`): a call keeps the
journal, stores a planned one and exposes its edges, or makes it durable
unacknowledged and exposes nothing. A commit never finds its journal stored
already.

* `Exposes.solo` and `Device.tickRun` give the chain of a client and of a tick.
* `SoloRun.sounds`, `SoloRun.rings`, `SoloRun.startsLast` and `SoloRun.settles`
  are what a chain does to the alert output.
-/

namespace DawnDock

open AtomicProgram

/-! ### Chains of commits -/

/-- One call of a client that has the store to itself. -/
inductive SoloStep (allowed : RuntimeTickObservation → CommitStage → Prop) (e : StoreEvent) :
    List AlertEdge → Prop where
  | kept (same : e.after.journal = e.before.journal) : SoloStep allowed e []
  | stored {observation : RuntimeTickObservation} {stage : CommitStage} {edges : List AlertEdge}
      {journal : PersistentAlarmState} (usual : allowed observation stage)
      (planned : Plans e.before.snapshot observation stage edges journal)
      (fits : Fits e.before journal e.before.snapshot.revision e.before.generation)
      (after : e.after = e.before.withJournal journal)
      (answer : storeStatus e.call e.reply = some .stored) : SoloStep allowed e edges
  /-- Durable, although the caller is told that it failed. -/
  | lost {observation : RuntimeTickObservation} {stage : CommitStage} {edges : List AlertEdge}
      {journal : PersistentAlarmState} (usual : allowed observation stage)
      (planned : Plans e.before.snapshot observation stage edges journal)
      (fits : Fits e.before journal e.before.snapshot.revision e.before.generation)
      (after : e.after = e.before.withJournal journal)
      (failed : storeStatus e.call e.reply ≠ some .stored) : SoloStep allowed e []

/-- The calls of a client that has the store to itself, with all their edges. -/
inductive SoloRun (allowed : RuntimeTickObservation → CommitStage → Prop) :
    Register → StoreLog → List AlertEdge → Register → Prop where
  | nil {s : Register} : SoloRun allowed s [] [] s
  | cons {e : StoreEvent} {own : StoreLog} {t : Register} {edges more : List AlertEdge}
      (first : SoloStep allowed e edges) (rest : SoloRun allowed e.after own more t) :
      SoloRun allowed e.before (e :: own) (edges ++ more) t

/-- The commits of one stage set under one observation. -/
def During (observation : RuntimeTickObservation) (stages : CommitStage → Prop) :
    RuntimeTickObservation → CommitStage → Prop :=
  fun observed stage => observed = observation ∧ stages stage

section

variable {allowed allowed' : RuntimeTickObservation → CommitStage → Prop}
  {observation : RuntimeTickObservation} {stages : CommitStage → Prop} {log own later : StoreLog}
  {e : StoreEvent} {edges more : List AlertEdge} {s t u : Register}

theorem SoloRun.append (first : SoloRun allowed s own edges t)
    (second : SoloRun allowed t later more u) :
    SoloRun allowed s (own ++ later) (edges ++ more) u := by
  induction first with
  | nil => exact second
  | cons step rest ih =>
      rw [List.append_assoc]
      exact .cons step (ih second)

theorem SoloStep.mono (h : SoloStep allowed e edges)
    (sub : ∀ observation stage, allowed observation stage → allowed' observation stage) :
    SoloStep allowed' e edges := by
  cases h with
  | kept same => exact .kept same
  | stored usual planned fits after answer => exact .stored (sub _ _ usual) planned fits after answer
  | lost usual planned fits after failed => exact .lost (sub _ _ usual) planned fits after failed

theorem SoloRun.mono (h : SoloRun allowed s own edges t)
    (sub : ∀ observation stage, allowed observation stage → allowed' observation stage) :
    SoloRun allowed' s own edges t := by
  induction h with
  | nil => exact .nil
  | cons step rest ih => exact .cons (step.mono sub) ih

theorem succ_ne_self (n : UInt64) : n + 1 ≠ n := by grind

/-- Nobody else can have stored the planned journal. -/
theorem CallEffect.solo (h : CallEffect observation stages log e edges)
    (current : ∀ seen, log.getLast? = some seen → seen.after = e.before) :
    SoloStep (During observation stages) e edges := by
  cases h with
  | kept same => exact .kept same
  | stored allowed planned fits after answer => exact .stored ⟨rfl, allowed⟩ planned fits after answer
  | unconfirmed allowed planned fits after answer failed =>
      refine .lost ⟨rfl, allowed⟩ planned fits after ?_
      rw [answer]
      rintro ⟨⟩
      cases failed
  | repeated last loaded allowed planned later same =>
      rw [current _ last] at later
      exact absurd later (succ_ne_self _)

theorem Exposes.solo (h : Exposes observation stages log own edges)
    (answers : Along StoreRely log own) (linked : Linked s own t)
    (current : ∀ seen, log.getLast? = some seen → seen.after = s) :
    SoloRun (During observation stages) s own edges t := by
  induction h generalizing s with
  | nil =>
      obtain rfl := linked
      exact .nil
  | cons first rest ih =>
      obtain ⟨rfl, linked⟩ := linked
      obtain ⟨rely, answers⟩ := answers
      exact .cons ((first.effect rely).solo current) (ih answers linked (by simp))

end

/-! ### What a chain does to the output -/

/-- A call that changed the durable journal without an acknowledgement. -/
def Unacknowledged (e : StoreEvent) : Prop :=
  e.after.journal ≠ e.before.journal ∧ storeStatus e.call e.reply ≠ some .stored

section

variable {snapshot : ScheduleSnapshot} {observation : RuntimeTickObservation}
  {stage : CommitStage} {edges : List AlertEdge} {journal : PersistentAlarmState}

theorem Plans.sounds (h : Plans snapshot observation stage edges journal)
    (distinct : (snapshot.alarms.map (·.id)).Nodup) (booted : observation.bootId = []) :
    soundAfter (ringing snapshot.occurrenceState) edges = ringing journal := by
  rcases h.cases distinct with step | ⟨-, -, steps⟩ | ⟨-, step⟩
  · exact step.sounds booted
  · exact steps.sounds rfl
  · exact step.sounds

/-- A planned journal that rings was started by its own edges. -/
theorem Plans.rings (h : Plans snapshot observation stage edges journal)
    (distinct : (snapshot.alarms.map (·.id)).Nodup) {occurrenceId : Text}
    (rings : ringing journal = some occurrenceId) (sound : Option Text) :
    soundAfter sound edges = some occurrenceId := by
  rcases h.cases distinct with step | ⟨-, idle, steps⟩ | ⟨-, step⟩
  · exact step.rings rings sound
  · have sounds := steps.sounds rfl
    rw [ringing_idle idle, rings] at sounds
    have nonempty : edges ≠ [] := by
      rintro rfl
      cases sounds
    rwa [soundAfter_of_ne_nil nonempty sound none]
  · cases step with
    | snoozed held => cases rings
    | dismissed reason held => cases rings

/-- A tick's commit starts an alert last, and not while the journal is quiet. -/
theorem Plans.startsLast (h : Plans snapshot observation stage edges journal)
    (distinct : (snapshot.alarms.map (·.id)).Nodup) (booted : observation.bootId = [])
    (tick : stage.isControl = false) : StartsLast edges ∧
      (∀ occurrenceId, AlertEdge.start occurrenceId ∈ edges → Quiet observation journal) ∧
      ¬ Quiet observation snapshot.occurrenceState := by
  rcases h.cases distinct with step | ⟨-, idle, steps⟩ | ⟨control, -⟩
  · exact ⟨startsLast_of_length step.length_edges, fun _ => step.quiet booted,
      step.not_quiet booted⟩
  · obtain ⟨ordered, quiet⟩ := steps.startsLast rfl
    refine ⟨ordered, quiet, ?_⟩
    rintro ⟨active, held, -⟩
    rw [idle] at held
    cases held
  · rw [tick] at control
    cases control

end

section

variable {allowed : RuntimeTickObservation → CommitStage → Prop}
  {observation : RuntimeTickObservation} {stages : CommitStage → Prop} {own : StoreLog}
  {e : StoreEvent} {edges : List AlertEdge} {s t : Register}

theorem Fits.distinct {current : Register} {state : PersistentAlarmState}
    {revision generation : UInt64} (fits : Fits current state revision generation) :
    (current.snapshot.alarms.map (·.id)).Nodup := (validateSnapshot_iff.mp fits.valid).1.ids

/-- A commit writes a journal that differs from the stored one. -/
theorem Plans.journal_ne {stage : CommitStage} {journal : PersistentAlarmState}
    (planned : Plans e.before.snapshot observation stage edges journal)
    (fits : Fits e.before journal e.before.snapshot.revision e.before.generation)
    (after : e.after = e.before.withJournal journal) : e.after.journal ≠ e.before.journal := by
  rw [after, Register.journal_of_loaded fits.loaded]
  exact planned.changed fits.distinct

/-- Where every change is acknowledged, nothing is lost. -/
theorem SoloStep.acknowledged (h : SoloStep allowed e edges) (told : ¬ Unacknowledged e) :
    (edges = [] ∧ e.after.journal = e.before.journal) ∨
      ∃ observation stage, allowed observation stage ∧
        (e.before.snapshot.alarms.map (·.id)).Nodup ∧ e.before.status = .loaded ∧
        Plans e.before.snapshot observation stage edges e.after.journal := by
  cases h with
  | kept same => exact .inl ⟨rfl, same⟩
  | stored usual planned fits after =>
      refine .inr ⟨_, _, usual, fits.distinct, fits.loaded, ?_⟩
      rw [after]
      exact planned
  | lost usual planned fits after failed => exact absurd ⟨planned.journal_ne fits after, failed⟩ told

/-- The output follows the journal. -/
theorem SoloRun.sounds (h : SoloRun allowed s own edges t)
    (told : ∀ e ∈ own, ¬ Unacknowledged e)
    (booted : ∀ observation stage, allowed observation stage → observation.bootId = []) :
    soundAfter (ringing s.journal) edges = ringing t.journal := by
  induction h with
  | nil => rfl
  | cons first rest ih =>
      obtain ⟨toldFirst, toldRest⟩ := List.forall_mem_cons.mp told
      rw [soundAfter_append, ← ih toldRest]
      congr 1
      rcases first.acknowledged toldFirst with ⟨rfl, same⟩ |
        ⟨observation, stage, usual, distinct, loaded, planned⟩
      · rw [same]
        rfl
      · rw [Register.journal_of_loaded loaded]
        exact planned.sounds distinct (booted _ _ usual)

/-- Whatever rings was started, if no journal rings unacknowledged. -/
theorem SoloRun.rings (h : SoloRun allowed s own edges t)
    (silent : ∀ e ∈ own, Unacknowledged e → ringing e.after.journal = none)
    {sound : Option Text}
    (before : ∀ occurrenceId, ringing s.journal = some occurrenceId → sound = some occurrenceId)
    (occurrenceId : Text) (rings : ringing t.journal = some occurrenceId) :
    soundAfter sound edges = some occurrenceId := by
  induction h generalizing sound with
  | nil => exact before occurrenceId rings
  | cons first rest ih =>
      obtain ⟨silentFirst, silentRest⟩ := List.forall_mem_cons.mp silent
      rw [soundAfter_append]
      refine ih silentRest (fun other started => ?_) rings
      cases first with
      | kept same => exact before other (same ▸ started)
      | stored usual planned fits after =>
          rw [after] at started
          exact planned.rings fits.distinct started sound
      | lost usual planned fits after failed =>
          rw [silentFirst ⟨planned.journal_ne fits after, failed⟩] at started
          cases started

/-- From a quiet journal a tick does nothing. -/
theorem SoloRun.of_quiet (h : SoloRun (During observation stages) s own edges t)
    (told : ∀ e ∈ own, ¬ Unacknowledged e) (booted : observation.bootId = [])
    (tick : ∀ stage, stages stage → stage.isControl = false)
    (quiet : Quiet observation s.journal) : edges = [] ∧ t.journal = s.journal := by
  induction h with
  | nil => exact ⟨rfl, rfl⟩
  | cons first rest ih =>
      obtain ⟨toldFirst, toldRest⟩ := List.forall_mem_cons.mp told
      rcases first.acknowledged toldFirst with ⟨rfl, same⟩ |
        ⟨_, stage, ⟨rfl, usual⟩, distinct, loaded, planned⟩
      · obtain ⟨rfl, final⟩ := ih toldRest (same ▸ quiet)
        exact ⟨rfl, final.trans same⟩
      · rw [Register.journal_of_loaded loaded] at quiet
        exact absurd quiet (planned.startsLast distinct booted (tick stage usual)).2.2

/-- No edge follows a start. -/
theorem SoloRun.startsLast (h : SoloRun (During observation stages) s own edges t)
    (told : ∀ e ∈ own, ¬ Unacknowledged e) (booted : observation.bootId = [])
    (tick : ∀ stage, stages stage → stage.isControl = false) : StartsLast edges := by
  induction h with
  | nil => exact .nil
  | cons first rest ih =>
      obtain ⟨toldFirst, toldRest⟩ := List.forall_mem_cons.mp told
      rcases first.acknowledged toldFirst with ⟨rfl, -⟩ |
        ⟨_, stage, ⟨rfl, usual⟩, distinct, loaded, planned⟩
      · exact ih toldRest
      · obtain ⟨ordered, quiet, -⟩ := planned.startsLast distinct booted (tick stage usual)
        exact ordered.append (ih toldRest) fun occurrenceId start =>
          (rest.of_quiet toldRest booted tick (quiet occurrenceId start)).1

/-- Settling a boot commits at most once, and leaves the occurrence recovered. -/
theorem SoloRun.settles (h : SoloRun (During observation (· = .settle)) s own edges t)
    (told : ∀ e ∈ own, ¬ Unacknowledged e) (boot : observation.bootId ≠ []) :
    (edges = [] ∧ t.journal = s.journal) ∨
      ¬ Recovered observation.bootId s.journal ∧ Recovered observation.bootId t.journal ∧
        edges.length ≤ 1 ∧ soundAfter none edges = ringing t.journal ∧
        ∀ occurrenceId, AlertEdge.start occurrenceId ∈ edges → Quiet observation t.journal := by
  induction h with
  | nil => exact .inl ⟨rfl, rfl⟩
  | cons first rest ih =>
      obtain ⟨toldFirst, toldRest⟩ := List.forall_mem_cons.mp told
      rcases first.acknowledged toldFirst with ⟨rfl, same⟩ |
        ⟨observed, stage, ⟨rfl, rfl⟩, distinct, loaded, planned⟩
      · rw [← same]
        exact ih toldRest
      · right
        rw [Register.journal_of_loaded loaded]
        cases planned with
        | control user => cases user
        | settle done persists =>
            have pending : (!observed.bootId.isEmpty) = true := by simpa using boot
            rw [pending] at done
            have settled := @settleTransition_boot _ observed (by rw [done]; exact persists)
            rw [done] at settled
            obtain ⟨before, after, short, sound, quiet⟩ := settled
            -- A second commit would recover the occurrence again.
            rcases ih toldRest with ⟨rfl, same⟩ | ⟨unrecovered, -⟩
            · rw [List.append_nil, same]
              exact ⟨before, after, short, sound, quiet⟩
            · exact absurd after unrecovered

end

/-! ### The operations of a device -/

section

variable {observation : RuntimeTickObservation} {stages : CommitStage → Prop} {log : StoreLog}
  {edges : List AlertEdge} {s t : Register}

theorem Exposing.solo (h : Exposing observation stages [] edges log)
    (answers : Along StoreRely [] log) (linked : Linked s log t) :
    SoloRun (During observation stages) s log edges t := by
  obtain ⟨own, rfl, exposes⟩ := h
  exact exposes.solo answers linked (by simp)

/-- A tick alone: it ends while settling, or settles and goes on without a boot. -/
inductive TickRun (state : RuntimeCoordinatorState) (observation : RuntimeTickObservation)
    (done : RuntimeTickResult × RuntimeCoordinatorState) (s : Register) (log : StoreLog)
    (t : Register) : Prop where
  | ended
      (run : SoloRun (During (observation.booted (isBootPending state observation))
        (· = .settle)) s log [] t)
      (silent : done.1.edges = []) (unfinished : done.1.status ≠ .evaluated)
      (kept : done.2.lastHandledBootId = state.lastHandledBootId)
  | settled {middle : Register} {first later : StoreLog} {edges more : List AlertEdge}
      (whole : log = first ++ later)
      (settling : SoloRun (During (observation.booted (isBootPending state observation))
        (· = .settle)) s first edges middle)
      (evaluating : SoloRun (During (observation.booted false)
        (evaluationStage state.reconciliationPending)) middle later more t)
      (exposed : done.1.edges = edges ++ more)
      (handled : isBootPending state observation = true →
        done.2.lastHandledBootId = observation.bootId ∧
          Recovered observation.bootId middle.journal)
      (kept : isBootPending state observation = false →
        done.2.lastHandledBootId = state.lastHandledBootId)

theorem TickProgress.run {state : RuntimeCoordinatorState}
    {done : RuntimeTickResult × RuntimeCoordinatorState}
    (h : TickProgress state observation [] done log) (answers : Along StoreRely [] log)
    (linked : Linked s log t) : TickRun state observation done s log t := by
  cases h with
  | ended exposing silent unfinished kept =>
      exact .ended (exposing.solo answers linked) silent unfinished kept
  | settled settling evaluating exposed handled kept =>
      rename_i first _ _
      obtain ⟨later, rfl, exposes⟩ := evaluating
      obtain ⟨middle, linkedFirst, linkedLater⟩ := linked_append.mp linked
      obtain ⟨answersFirst, answersLater⟩ := along_append.mp answers
      have current : ∀ seen, first.getLast? = some seen → seen.after = middle := fun _ =>
        linkedFirst.last
      refine .settled rfl (settling.solo answersFirst linkedFirst)
        (exposes.solo answersLater linkedLater current) exposed (fun pending => ?_) kept
      obtain ⟨same, snapshot, generation, ⟨seen, last, loaded, shown, -⟩, recovered⟩ :=
        handled pending
      refine ⟨same, ?_⟩
      rwa [← current seen last, Register.journal_of_loaded loaded, shown]

end

/-- A tick of a device. -/
theorem Device.tickRun (faults : ℕ → StorageFaults) (device : Device)
    (observation : RuntimeTickObservation) :
    ∃ result, device.outcome faults (.tick observation) = ⟨result.edges, some result.status⟩ ∧
      TickRun device.coordinator observation
        (result, (device.step faults (.tick observation)).coordinator) device.current
        (device.calls faults (.tick observation))
        (device.step faults (.tick observation)).current := by
  obtain ⟨result, same, progress⟩ := device.progress faults (.tick observation)
  exact ⟨result, same, progress.run (device.calls_along faults _) (device.calls_linked faults _)⟩

/-- Every operation exposes the edges of its own chain of commits. -/
theorem Device.soloRun (faults : ℕ → StorageFaults) (device : Device) (op : DeviceOp) :
    SoloRun (fun observation _ => op.Observes observation) device.current
      (device.calls faults op) (device.outcome faults op).edges
      (device.step faults op).current := by
  have answers := device.calls_along faults op
  have linked := device.calls_linked faults op
  have progress := device.progress faults op
  have alone {stages : CommitStage → Prop}
      (exposing : Exposing op.observation stages [] (device.outcome faults op).edges
        (device.calls faults op)) :
      SoloRun (fun observation _ => op.Observes observation) device.current
        (device.calls faults op) (device.outcome faults op).edges
        (device.step faults op).current := by
    refine (exposing.solo answers linked).mono ?_
    rintro _ _ ⟨rfl, -⟩
    exact .inl rfl
  cases op with
  | tick observation =>
      obtain ⟨result, shown, run⟩ := device.tickRun faults observation
      have usual (bootPending : Bool) {stages : CommitStage → Prop}
          (observed : RuntimeTickObservation) (stage : CommitStage)
          (h : During (observation.booted bootPending) stages observed stage) :
          DeviceOp.Observes (.tick observation) observed := by
        obtain ⟨rfl, -⟩ := h
        exact booted_bootId observation bootPending
      rw [shown]
      cases run with
      | ended run silent =>
          rw [silent]
          exact run.mono (usual _)
      | settled whole settling evaluating exposed =>
          rw [whole, exposed]
          exact (settling.mono (usual _)).append (evaluating.mono (usual _))
  | evaluate observation => exact alone progress.2
  | reconcile observation => exact alone progress.2
  | engine call => exact alone progress.2
  | disable alarmId => exact alone progress.2
  | saveSchedule schedule expectedRevision =>
      have silent : (device.outcome faults (.saveSchedule schedule expectedRevision)).edges = [] :=
        congrArg (fun done => done.1.edges) progress.1
      rw [silent]
      exact silent ▸ alone (silent.symm ▸ progress.2)
  | reboot => exact .nil

/-- Over healthy storage a register that changes is acknowledged. -/
theorem performRegister_healthy {current : Register} {c : StoreCall}
    (silent : storeStatus c (performRegister {} current c).1 ≠ some .stored) :
    (performRegister {} current c).2 = current := by
  have writes {plan : WritePlan}
      (silent : (writeRegister {} current plan).1.status ≠ .stored) :
      (writeRegister {} current plan).2 = current := by
    cases plan with
    | answer result => rfl
    | commit snapshot destination => exact absurd rfl silent
  cases c with
  | load => rfl
  | _ => exact writes fun stored => silent (congrArg some stored)

theorem Device.acknowledged (device : Device) (op : DeviceOp) :
    ∀ e ∈ device.calls (fun _ => {}) op, ¬ Unacknowledged e := by
  rintro _ mem ⟨changed, silent⟩
  obtain ⟨e, recorded, rfl⟩ := List.mem_map.mp mem
  have step := event_step _ _ _ e recorded
  generalize e.before = s at step
  generalize e.call = c at step
  subst step
  have answered := performStore_simulates {} s.2 c
  refine changed (congrArg Register.journal ?_)
  have kept := @performRegister_healthy (scanSlots s.2) c
  rw [answered] at kept
  exact kept silent

end DawnDock
