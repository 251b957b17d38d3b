import DawnDock.Clients.Solo
import DawnDock.ScheduleStore.Atomicity

/-!
The alert output over whole runs of a single writer.

`soundAfter none device.exposed` is what the output plays, `ringing` what the
durable journal wants to hear.

* `edges_track_journal`: over healthy storage both agree after every evaluated
  tick, across reboots, clock jumps and user operations.
* `rung_if_acknowledged`: under faults whatever rings was started, as long as no
  journal that rings becomes durable unacknowledged.
* `lost_acknowledgement_is_silent`: the one that does is never started.
-/

namespace DawnDock

open AtomicProgram

/-! ### Boots -/

/-- A snooze, a dismissal or a disable. -/
def DeviceOp.IsControl : DeviceOp → Prop
  | .engine (.snooze ..) | .engine (.dismiss ..) | .disable _ => True
  | _ => False

/-- The operations of a single writer in the boot `bootId`. -/
def DeviceOp.Within (bootId : Text) : DeviceOp → Prop
  | .tick observation => observation.bootId = bootId
  | op => op.IsControl

theorem DeviceOp.Within.cases {bootId : Text} {op : DeviceOp} (h : op.Within bootId) :
    (∃ observation, op = .tick observation ∧ observation.bootId = bootId) ∨ op.IsControl := by
  cases op with
  | tick observation => exact .inl ⟨observation, rfl, h⟩
  | _ => exact .inr h

/-- One boot: its id and what is done in it. -/
structure Boot where
  bootId : Text
  ops : List DeviceOp
  nonempty : bootId ≠ []
  within : ∀ op ∈ ops, op.Within bootId

def Boot.history (boot : Boot) : List DeviceOp := .reboot :: boot.ops

section

variable {alarms : List StoredAlarmDefinition} {observation : RuntimeTickObservation}
  {snapshot : ScheduleSnapshot} {stage : CommitStage} {P : Text → Prop}
  {state final journal : PersistentAlarmState} {edges : List AlertEdge}

theorem TickStep.lastRecovery (step : TickStep alarms observation state edges final)
    (never : P []) (now : P observation.bootId) (before : LastRecovery P state) :
    LastRecovery P final := by
  cases step with
  | admitted eligible =>
      rintro _ ⟨⟩
      exact never
  | missed reason eligible =>
      intro active held
      rw [missOccurrence_idle eligible.idle reason] at held
      cases held
  | timedOut held => rintro _ ⟨⟩
  | @rerung active deadline held =>
      rintro _ ⟨⟩
      exact before active held
  | recovered held =>
      rintro _ ⟨⟩
      exact now
  | expired held => rintro _ ⟨⟩

theorem TickSteps.lastRecovery (steps : TickSteps alarms observation state edges final)
    (never : P []) (now : P observation.bootId) (before : LastRecovery P state) :
    LastRecovery P final := by
  induction steps with
  | nil => exact before
  | cons step rest ih => exact ih (step.lastRecovery never now before)

theorem ControlStep.lastRecovery (step : ControlStep state edges final)
    (before : LastRecovery P state) : LastRecovery P final := by
  cases step with
  | @snoozed active deadline held =>
      rintro _ ⟨⟩
      exact before active held
  | dismissed reason held => rintro _ ⟨⟩

/-- A control stage commits a control step. -/
theorem Plans.controlStep (h : Plans snapshot observation stage edges journal)
    (user : stage.isControl = true) : ControlStep snapshot.occurrenceState edges journal := by
  cases h with
  | control _ done persists =>
      rcases done with ⟨idle, -⟩ | ⟨-, step⟩
      · rw [persists] at idle
        cases idle
      · exact step
  | _ => cases user

/-- The user's operations recover nothing. -/
theorem Plans.lastRecovery (h : Plans snapshot observation stage edges journal)
    (distinct : (snapshot.alarms.map (·.id)).Nodup)
    (boots : stage.isControl = true ∨ P [] ∧ P observation.bootId)
    (before : LastRecovery P snapshot.occurrenceState) : LastRecovery P journal := by
  rcases boots with user | ⟨never, now⟩
  · exact (h.controlStep user).lastRecovery before
  rcases h.cases distinct with step | ⟨-, -, steps⟩ | ⟨-, step⟩
  · exact step.lastRecovery never now before
  · exact steps.lastRecovery never never before
  · exact step.lastRecovery before

theorem ControlStep.silences (step : ControlStep state edges final) (sound : Option Text) :
    soundAfter sound edges = none := by
  cases step with
  | snoozed held => rfl
  | dismissed reason held => rfl

end

section

variable {allowed : RuntimeTickObservation → CommitStage → Prop} {own : StoreLog}
  {edges : List AlertEdge} {s t : Register}

theorem SoloRun.lastRecovery {P : Text → Prop} (h : SoloRun allowed s own edges t)
    (boots : ∀ observation stage, allowed observation stage →
      stage.isControl = true ∨ P [] ∧ P observation.bootId)
    (before : LastRecovery P s.journal) : LastRecovery P t.journal := by
  induction h with
  | nil => exact before
  | cons first rest ih =>
      refine ih ?_
      cases first with
      | kept same => rwa [same]
      | stored usual planned fits after | lost usual planned fits after =>
          rw [after]
          rw [Register.journal_of_loaded fits.loaded] at before
          exact planned.lastRecovery fits.distinct (boots _ _ usual) before

/-- The user's operations leave a silent output silent. -/
theorem SoloRun.silences (h : SoloRun allowed s own edges t)
    (user : ∀ observation stage, allowed observation stage → stage.isControl = true) :
    soundAfter none edges = none := by
  induction h with
  | nil => rfl
  | cons first rest ih =>
      rw [soundAfter_append]
      cases first with
      | kept same => exact ih
      | stored usual planned =>
          rw [(planned.controlStep (user _ _ usual)).silences]
          exact ih
      | lost usual planned => exact ih

end

/-- The user's commits, which see no boot. -/
def ByUser (observation : RuntimeTickObservation) (stage : CommitStage) : Prop :=
  observation.bootId = [] ∧ stage.isControl = true

theorem Device.controlRun (faults : ℕ → StorageFaults) (device : Device) {op : DeviceOp}
    (control : op.IsControl) : (device.step faults op).coordinator = device.coordinator ∧
      SoloRun ByUser device.current (device.calls faults op) (device.outcome faults op).edges
        (device.step faults op).current := by
  have progress := device.progress faults op
  have answers := device.calls_along faults op
  have linked := device.calls_linked faults op
  cases op with
  | engine call =>
      obtain ⟨kept, exposing⟩ := progress
      refine ⟨kept, (exposing.solo answers linked).mono ?_⟩
      rintro observation stage ⟨rfl, usual⟩
      cases call with
      | due | active => cases control
      | snooze | dismiss =>
          obtain rfl : stage = .control := usual
          exact ⟨rfl, rfl⟩
  | disable alarmId =>
      obtain ⟨kept, exposing⟩ := progress
      refine ⟨kept, (exposing.solo answers linked).mono ?_⟩
      rintro observation stage ⟨rfl, rfl⟩
      exact ⟨rfl, rfl⟩
  | tick | evaluate | reconcile | saveSchedule | reboot => cases control

theorem Device.step_exposed (faults : ℕ → StorageFaults) (device : Device) {op : DeviceOp}
    (running : op ≠ .reboot) :
    (device.step faults op).exposed = device.exposed ++ (device.outcome faults op).edges :=
  if_neg running

theorem DeviceOp.IsControl.ne_reboot {op : DeviceOp} (control : op.IsControl) : op ≠ .reboot := by
  rintro rfl
  cases control

theorem isBootPending_iff {state : RuntimeCoordinatorState}
    {observation : RuntimeTickObservation} : isBootPending state observation = true ↔
      observation.bootId ≠ [] ∧ state.lastHandledBootId ≠ observation.bootId := by
  simp [isBootPending]

theorem Plans.settleStep {snapshot : ScheduleSnapshot} {observation : RuntimeTickObservation}
    {edges : List AlertEdge} {journal : PersistentAlarmState}
    (h : Plans snapshot observation .settle edges journal)
    (distinct : (snapshot.alarms.map (·.id)).Nodup) :
    TickStep snapshot.alarms observation snapshot.occurrenceState edges journal := by
  rcases h.cases distinct with step | ⟨other, -⟩ | ⟨other, -⟩
  · exact step
  · cases other
  · cases other

/-- Settling without an edge recovers nothing. -/
theorem SoloRun.unrecovered {observation : RuntimeTickObservation} {own : StoreLog}
    {edges : List AlertEdge} {s t : Register} {bootId : Text}
    (h : SoloRun (During observation (· = .settle)) s own edges t) (edgeless : edges = [])
    (silent : ∀ e ∈ own, Unacknowledged e → ringing e.after.journal = none)
    (before : Unrecovered bootId s.journal) : Unrecovered bootId t.journal := by
  induction h with
  | nil => exact before
  | cons first rest ih =>
      obtain ⟨silentFirst, silentRest⟩ := List.forall_mem_cons.mp silent
      obtain ⟨rfl, edgeless⟩ := List.append_eq_nil_iff.mp edgeless
      refine ih edgeless silentRest ?_
      cases first with
      | kept same => rwa [same]
      | stored usual planned fits after =>
          obtain ⟨rfl, rfl⟩ := usual
          rw [after]
          refine (planned.settleStep fits.distinct).unrecovered ?_
          cases rings : ringing _ with
          | none => rfl
          | some occurrenceId =>
              have started := planned.rings fits.distinct rings none
              cases started
      | lost usual planned fits after failed =>
          obtain ⟨rfl, rfl⟩ := usual
          have quiet := silentFirst ⟨planned.journal_ne fits after, failed⟩
          rw [after] at quiet ⊢
          exact (planned.settleStep fits.distinct).unrecovered quiet

/-! ### Healthy storage -/

/-- Storage without faults. -/
def healthy : ℕ → StorageFaults := fun _ => {}

/-- What holds within a boot: it is still to be handled and nothing was started, or
the output plays what the journal wants. -/
inductive Tracks (bootId : Text) (device : Device) : Prop where
  | pending (unhandled : device.coordinator.lastHandledBootId ≠ bootId)
      (silent : soundAfter none device.exposed = none)
      (unrecovered : Unrecovered bootId device.current.journal)
  | handled (done : device.coordinator.lastHandledBootId = bootId)
      (sounds : soundAfter none device.exposed = ringing device.current.journal)

section

variable {bootId : Text} {device : Device} {observation : RuntimeTickObservation}

theorem told_append {first later : StoreLog} (told : ∀ e ∈ first ++ later, ¬ Unacknowledged e) :
    (∀ e ∈ first, ¬ Unacknowledged e) ∧ ∀ e ∈ later, ¬ Unacknowledged e :=
  List.forall_mem_append.mp told

/-- A tick of a boot that is still to be handled. -/
theorem TickRun.pending {state : RuntimeCoordinatorState}
    {done : RuntimeTickResult × RuntimeCoordinatorState} {s t : Register} {log : StoreLog}
    (run : TickRun state observation done s log t) (told : ∀ e ∈ log, ¬ Unacknowledged e)
    (pending : isBootPending state observation = true)
    (unrecovered : Unrecovered observation.bootId s.journal) :
    StartsLast done.1.edges ∧
      ((done.1.edges = [] ∧ done.1.status ≠ .evaluated ∧
        done.2.lastHandledBootId = state.lastHandledBootId ∧
        Unrecovered observation.bootId t.journal) ∨
      (done.2.lastHandledBootId = observation.bootId ∧
        soundAfter none done.1.edges = ringing t.journal)) := by
  cases run with
  | ended run silent unfinished kept =>
      rw [silent]
      refine ⟨.nil, .inl ⟨rfl, unfinished, kept, ?_⟩⟩
      exact run.unrecovered rfl (fun e mem lost => absurd lost (told e mem)) unrecovered
  | settled whole settling evaluating exposed handled kept =>
      subst whole
      obtain ⟨toldFirst, toldLater⟩ := told_append told
      obtain ⟨same, recovered⟩ := handled pending
      rw [pending] at settling
      have settled := settling.settles toldFirst (isBootPending_iff.mp pending).1
      have sounds := evaluating.sounds toldLater (by rintro _ _ ⟨rfl, -⟩; rfl)
      have ordered := evaluating.startsLast toldLater rfl fun _ => evaluationStage.tick
      rw [exposed]
      rcases settled with ⟨rfl, kept⟩ | ⟨-, -, short, sound, quiet⟩
      · refine ⟨ordered, .inr ⟨same, ?_⟩⟩
        rw [← sounds, kept, ringing_idle ((kept ▸ recovered).idle unrecovered)]
        rfl
      · refine ⟨(startsLast_of_length short).append ordered fun occurrenceId start => ?_,
          .inr ⟨same, by rw [soundAfter_append, sound, sounds]⟩⟩
        exact (evaluating.of_quiet toldLater rfl (fun _ => evaluationStage.tick)
          (quiet occurrenceId start)).1

/-- A tick of a handled boot. -/
theorem TickRun.handled {state : RuntimeCoordinatorState}
    {done : RuntimeTickResult × RuntimeCoordinatorState} {s t : Register} {log : StoreLog}
    (run : TickRun state observation done s log t) (told : ∀ e ∈ log, ¬ Unacknowledged e)
    (handled : isBootPending state observation = false) :
    StartsLast done.1.edges ∧ done.2.lastHandledBootId = state.lastHandledBootId ∧
      soundAfter (ringing s.journal) done.1.edges = ringing t.journal := by
  have tick (latched : Bool) (stage : CommitStage) :
      (stage = .settle ∨ evaluationStage latched stage) → stage.isControl = false := by
    rintro (rfl | usual)
    · rfl
    · exact usual.tick
  cases run with
  | ended run silent unfinished kept =>
      rw [handled] at run
      rw [silent]
      exact ⟨.nil, kept, run.sounds told (by rintro _ _ ⟨rfl, -⟩; rfl)⟩
  | settled whole settling evaluating exposed _ kept =>
      subst whole
      rw [handled] at settling
      have first := @SoloRun.mono _ (During (observation.booted false) fun stage =>
        stage = .settle ∨ evaluationStage state.reconciliationPending stage) _ _ _ _ settling
        fun _ _ usual => ⟨usual.1, .inl usual.2⟩
      have run := first.append (evaluating.mono fun _ _ usual => ⟨usual.1, .inr usual.2⟩)
      rw [exposed]
      exact ⟨run.startsLast told rfl (tick _), kept handled,
        run.sounds told (by rintro _ _ ⟨rfl, -⟩; rfl)⟩

/-- A tick keeps the output on track, and starts an alert last. -/
theorem Tracks.tick (h : Tracks bootId device) (nonempty : bootId ≠ [])
    (own : observation.bootId = bootId) :
    let after := device.step healthy (.tick observation)
    Tracks bootId after ∧ StartsLast (device.outcome healthy (.tick observation)).edges ∧
      ((device.outcome healthy (.tick observation)).status = some .evaluated →
        soundAfter none after.exposed = ringing after.current.journal) := by
  intro after
  subst own
  obtain ⟨result, shown, run⟩ := device.tickRun healthy observation
  have told := device.acknowledged (.tick observation)
  have exposed : after.exposed = device.exposed ++ result.edges := by
    rw [device.step_exposed healthy (by simp), shown]
  rw [shown, exposed, soundAfter_append]
  cases h with
  | pending unhandled silent unrecovered =>
      rw [silent]
      have pending := isBootPending_iff.mpr ⟨nonempty, unhandled⟩
      obtain ⟨ordered, ⟨edgeless, unfinished, kept, still⟩ | ⟨now, sounds⟩⟩ :=
        run.pending told pending unrecovered
      · refine ⟨.pending (kept ▸ unhandled) ?_ still, ordered, fun evaluated => ?_⟩
        · rw [exposed, edgeless, List.append_nil]
          exact silent
        · exact absurd (Option.some.inj evaluated) unfinished
      · refine ⟨.handled now ?_, ordered, fun _ => sounds⟩
        rw [exposed, soundAfter_append, silent]
        exact sounds
  | handled done sounds =>
      have handled : isBootPending device.coordinator observation = false := by
        simp [isBootPending, done]
      obtain ⟨ordered, kept, follows⟩ := run.handled told handled
      rw [sounds]
      refine ⟨.handled (kept.trans done) ?_, ordered, fun _ => follows⟩
      rw [exposed, soundAfter_append, sounds]
      exact follows

theorem Tracks.control (h : Tracks bootId device) {op : DeviceOp} (control : op.IsControl) :
    Tracks bootId (device.step healthy op) := by
  obtain ⟨kept, run⟩ := device.controlRun healthy control
  have exposed := device.step_exposed healthy control.ne_reboot
  cases h with
  | pending unhandled silent unrecovered =>
      refine .pending (kept ▸ unhandled) ?_ (run.lastRecovery (fun _ _ user => .inl user.2)
        unrecovered)
      rw [exposed, soundAfter_append, silent]
      exact run.silences fun _ _ user => user.2
  | handled done sounds =>
      refine .handled (kept ▸ done) ?_
      rw [exposed, soundAfter_append, sounds]
      exact run.sounds (device.acknowledged op) fun _ _ user => user.1

theorem Tracks.step (h : Tracks bootId device) (nonempty : bootId ≠ []) {op : DeviceOp}
    (within : op.Within bootId) : Tracks bootId (device.step healthy op) := by
  rcases within.cases with ⟨observation, rfl, own⟩ | control
  · exact (h.tick nonempty own).1
  · exact h.control control

end

/-- A tick recovers occurrences in its own boot only. -/
theorem TickRun.lastRecovery {P : Text → Prop} {state : RuntimeCoordinatorState}
    {observation : RuntimeTickObservation} {done : RuntimeTickResult × RuntimeCoordinatorState}
    {s t : Register} {log : StoreLog} (run : TickRun state observation done s log t)
    (never : P []) (now : P observation.bootId) (before : LastRecovery P s.journal) :
    LastRecovery P t.journal := by
  have boots (bootPending : Bool) : P (observation.booted bootPending).bootId := by
    cases bootPending with
    | true => exact now
    | false => exact never
  cases run with
  | ended run =>
      exact run.lastRecovery (by rintro _ _ ⟨rfl, -⟩; exact .inr ⟨never, boots _⟩) before
  | settled _ settling evaluating =>
      refine evaluating.lastRecovery (by rintro _ _ ⟨rfl, -⟩; exact .inr ⟨never, boots _⟩) ?_
      exact settling.lastRecovery (by rintro _ _ ⟨rfl, -⟩; exact .inr ⟨never, boots _⟩) before

/-- The boots before leave the journal unrecovered in a fresh one. -/
theorem Device.boots_unrecovered {bootId : Text} (nonempty : bootId ≠ []) {earlier : List Boot}
    (fresh : bootId ∉ earlier.map (·.bootId)) {device : Device}
    (unseen : Unrecovered bootId device.current.journal) :
    Unrecovered bootId
      (device.run healthy (earlier.flatMap Boot.history)).current.journal := by
  refine Device.run_induction
    (motive := fun device => Unrecovered bootId device.current.journal) unseen ?_
  intro device op mem before
  obtain ⟨boot, listed, mem⟩ := List.mem_flatMap.mp mem
  rcases List.mem_cons.mp mem with rfl | mem
  · exact before
  rcases (boot.within op mem).cases with ⟨observation, rfl, own⟩ | control
  · obtain ⟨result, -, run⟩ := device.tickRun healthy observation
    refine run.lastRecovery nonempty.symm ?_ before
    rintro rfl
    exact fresh (List.mem_map.mpr ⟨boot, listed, own.symm⟩)
  · exact (device.controlRun healthy control).2.lastRecovery (fun _ _ user => .inl user.2) before

/-- Over every run of a single writer on healthy storage, with a fresh boot id in
each boot: every edge of a tick that another follows is a stop, and after an
evaluated tick the output plays exactly the occurrence the journal rings for. -/
theorem edges_track_journal {slots : Slots} (earlier : List Boot) (boot : Boot)
    (fresh : boot.bootId ∉ earlier.map (·.bootId))
    (unseen : Unrecovered boot.bootId slots.journal) (observation : RuntimeTickObservation)
    (own : observation.bootId = boot.bootId) :
    let device := Device.run healthy { slots } (earlier.flatMap Boot.history ++ boot.history)
    let outcome := device.outcome healthy (.tick observation)
    let after := device.step healthy (.tick observation)
    StartsLast outcome.edges ∧
      (outcome.status = some .evaluated →
        soundAfter none after.exposed = ringing after.current.journal) := by
  intro device outcome after
  have tracks : Tracks boot.bootId device := by
    have unrecovered := @Device.boots_unrecovered _ boot.nonempty _ fresh { slots } unseen
    have booted : device = Device.run healthy
        ((Device.run healthy { slots } (earlier.flatMap Boot.history)).step healthy .reboot)
        boot.ops := Device.run_append ..
    rw [booted]
    refine Device.run_induction ?_ fun device op mem before =>
      before.step boot.nonempty (boot.within op mem)
    exact .pending boot.nonempty.symm rfl unrecovered
  exact (tracks.tick boot.nonempty own).2

theorem unrecovered_oneAlarmStore (bootId : Text) : Unrecovered bootId oneAlarmStore.journal := by
  rw [Slots.journal, Register.journal, scanSlots_oneAlarmStore]
  rintro _ ⟨⟩

/-- Ring, snooze, restart: the second boot starts the recovered occurrence. -/
theorem edges_track_journal_restart :
    let first : Boot :=
      { bootId := [0x31]
        ops := [.tick ⟨true, 1000, 5, [0x31]⟩,
          .engine (.snooze [0x77, 0x3a, 0x31, 0x3a, 0x31, 0x30, 0x30, 0x30] 10 60)]
        nonempty := by simp
        within := by simp [DeviceOp.Within, DeviceOp.IsControl] }
    let second : Boot := { bootId := [0x32], ops := [], nonempty := by simp, within := by simp }
    let device := Device.run healthy { slots := oneAlarmStore }
      ([first].flatMap Boot.history ++ second.history)
    let after := device.step healthy (.tick ⟨true, 1030, 2, [0x32]⟩)
    (device.outcome healthy (.tick ⟨true, 1030, 2, [0x32]⟩)).status = some .evaluated →
      soundAfter none after.exposed = ringing after.current.journal := by
  intro first second
  exact (edges_track_journal [first] second (by simp [first, second])
    (unrecovered_oneAlarmStore _) ⟨true, 1030, 2, [0x32]⟩ rfl).2

/-! ### Faults -/

/-- What holds within a boot when no journal rings unacknowledged. -/
inductive Rung (bootId : Text) (device : Device) : Prop where
  | pending (unhandled : device.coordinator.lastHandledBootId ≠ bootId)
      (unrecovered : Unrecovered bootId device.current.journal)
  | handled (done : device.coordinator.lastHandledBootId = bootId)
      (started : ∀ occurrenceId, ringing device.current.journal = some occurrenceId →
        soundAfter none device.exposed = some occurrenceId)

section

variable {bootId : Text} {device : Device} {observation : RuntimeTickObservation}
  {faults : ℕ → StorageFaults}

/-- While a boot is settled, whatever rings was started or is not recovered yet. -/
theorem SoloRun.settlesRung {own : StoreLog} {edges : List AlertEdge} {s t : Register}
    (h : SoloRun (During observation (· = .settle)) s own edges t)
    (silent : ∀ e ∈ own, Unacknowledged e → ringing e.after.journal = none)
    (unrecovered : Unrecovered bootId s.journal) (recovered : Recovered bootId t.journal)
    (sound : Option Text) (occurrenceId : Text)
    (rings : ringing t.journal = some occurrenceId) :
    soundAfter sound edges = some occurrenceId := by
  induction h generalizing sound with
  | nil =>
      rw [ringing_idle (recovered.idle unrecovered)] at rings
      cases rings
  | cons first rest ih =>
      obtain ⟨silentFirst, silentRest⟩ := List.forall_mem_cons.mp silent
      rw [soundAfter_append]
      cases first with
      | kept same => exact ih silentRest (same ▸ unrecovered) recovered _ rings
      | stored usual planned fits after =>
          refine rest.rings silentRest (fun other started => ?_) _ rings
          rw [after] at started
          exact planned.rings fits.distinct started sound
      | lost usual planned fits after failed =>
          refine rest.rings silentRest (fun other started => ?_) _ rings
          rw [silentFirst ⟨planned.journal_ne fits after, failed⟩] at started
          cases started

/-- A tick keeps every ring heard, unless a commit rings unacknowledged. -/
theorem Rung.tick (h : Rung bootId device) (nonempty : bootId ≠ [])
    (own : observation.bootId = bootId)
    (silent : ∀ e ∈ device.calls faults (.tick observation),
      Unacknowledged e → ringing e.after.journal = none) :
    let after := device.step faults (.tick observation)
    Rung bootId after ∧
      ((device.outcome faults (.tick observation)).status = some .evaluated →
        ∀ occurrenceId, ringing after.current.journal = some occurrenceId →
          soundAfter none after.exposed = some occurrenceId) := by
  intro after
  subst own
  obtain ⟨result, shown, run⟩ := device.tickRun faults observation
  have exposed : after.exposed = device.exposed ++ result.edges := by
    rw [device.step_exposed faults (by simp), shown]
  rw [shown, exposed, soundAfter_append]
  cases run with
  | ended run edgeless unfinished kept =>
      refine ⟨?_, fun evaluated => absurd (Option.some.inj evaluated) unfinished⟩
      cases h with
      | pending unhandled unrecovered =>
          exact .pending (kept ▸ unhandled) (run.unrecovered rfl silent unrecovered)
      | handled done started =>
          refine .handled (kept.trans done) ?_
          rw [exposed, soundAfter_append, show result.edges = [] from edgeless]
          exact run.rings silent started
  | settled whole settling evaluating reported handled kept =>
      rw [whole] at silent
      obtain ⟨silentFirst, silentLater⟩ := List.forall_mem_append.mp silent
      have heard : ∀ occurrenceId, ringing after.current.journal = some occurrenceId →
          soundAfter (soundAfter none device.exposed) result.edges = some occurrenceId := by
        rw [show result.edges = _ from reported]
        intro occurrenceId rings
        rw [soundAfter_append]
        refine evaluating.rings silentLater (fun other started => ?_) _ rings
        cases h with
        | pending unhandled unrecovered =>
            have pending := isBootPending_iff.mpr ⟨nonempty, unhandled⟩
            exact settling.settlesRung silentFirst unrecovered (handled pending).2 _ _ started
        | handled done earlier => exact settling.rings silentFirst earlier _ started
      refine ⟨.handled ?_ ?_, fun _ => heard⟩
      · cases pending : isBootPending device.coordinator observation with
        | true => exact (handled pending).1
        | false =>
            refine (kept pending).trans ?_
            by_contra unhandled
            rw [isBootPending_iff.mpr ⟨nonempty, unhandled⟩] at pending
            cases pending
      · rw [exposed, soundAfter_append]
        exact heard

/-- In every run of ticks of one boot, whatever the clocks and the storage do: if no
commit that leaves the journal ringing becomes durable unacknowledged, then after
every evaluated tick a ringing occurrence was started and nothing has stopped it. -/
theorem rung_if_acknowledged {slots : Slots} {coordinator : RuntimeCoordinatorState}
    (nonempty : bootId ≠ []) (unhandled : coordinator.lastHandledBootId ≠ bootId)
    (unseen : Unrecovered bootId slots.journal) (faults : ℕ → StorageFaults)
    (earlier : List RuntimeTickObservation) (booted : ∀ o ∈ earlier, o.bootId = bootId)
    (own : observation.bootId = bootId) :
    let device := Device.run faults { slots, coordinator } (earlier.map .tick)
    let after := device.step faults (.tick observation)
    (∀ e ∈ after.history, Unacknowledged e → ringing e.after.journal = none) →
    (device.outcome faults (.tick observation)).status = some .evaluated →
    ∀ occurrenceId, ringing after.current.journal = some occurrenceId →
      soundAfter none after.exposed = some occurrenceId := by
  intro device after silent
  obtain ⟨silentEarlier, silentNow⟩ := List.forall_mem_append.mp silent
  have rung : (∀ e ∈ device.history, Unacknowledged e → ringing e.after.journal = none) →
      Rung bootId device := by
    refine Device.run_induction
      (motive := fun device => (∀ e ∈ device.history, Unacknowledged e →
        ringing e.after.journal = none) → Rung bootId device) ?_ ?_
    · exact fun _ => .pending unhandled unseen
    · intro device op mem before silent
      obtain ⟨observation, listed, rfl⟩ := List.mem_map.mp mem
      obtain ⟨silentEarlier, silentNow⟩ := List.forall_mem_append.mp silent
      exact ((before silentEarlier).tick nonempty (booted observation listed) silentNow).1
  exact ((rung silentEarlier).tick nonempty own silentNow).2

end

theorem Device.run_acknowledged (device : Device) (ops : List DeviceOp)
    (told : ∀ e ∈ device.history, ¬ Unacknowledged e) :
    ∀ e ∈ (device.run healthy ops).history, ¬ Unacknowledged e := by
  refine Device.run_induction
    (motive := fun device => ∀ e ∈ device.history, ¬ Unacknowledged e) told ?_
  intro device op _ earlier e mem
  rcases List.mem_append.mp mem with mem | mem
  · exact earlier e mem
  · exact device.acknowledged op e mem

theorem rung_if_acknowledged_healthy :
    let device := Device.run healthy { slots := oneAlarmStore }
      ([⟨true, 999, 4, [0x31]⟩].map .tick)
    let after := device.step healthy (.tick ⟨true, 1000, 5, [0x31]⟩)
    (device.outcome healthy (.tick ⟨true, 1000, 5, [0x31]⟩)).status = some .evaluated →
    ∀ occurrenceId, ringing after.current.journal = some occurrenceId →
      soundAfter none after.exposed = some occurrenceId := by
  intro device after
  refine @rung_if_acknowledged [0x31] ⟨true, 1000, 5, [0x31]⟩ oneAlarmStore {} (by simp)
    (by simp) (unrecovered_oneAlarmStore _) healthy [⟨true, 999, 4, [0x31]⟩] (by simp) rfl ?_
  intro e mem lost
  exact absurd lost (Device.run_acknowledged { slots := oneAlarmStore }
    [.tick ⟨true, 999, 4, [0x31]⟩, .tick ⟨true, 1000, 5, [0x31]⟩] (by simp) e mem)

/-- The commit that admits the alarm lands and its read-back fails; the next tick is
evaluated over the ringing occurrence and starts nothing. -/
theorem lost_acknowledgement_is_silent :
    let faults : ℕ → StorageFaults := fun n => { readBackFails := n = 2 }
    let device := Device.run faults { slots := oneAlarmStore } [.tick ⟨true, 1000, 5, [0x31]⟩]
    let after := device.step faults (.tick ⟨true, 1001, 6, [0x31]⟩)
    (device.outcome faults (.tick ⟨true, 1001, 6, [0x31]⟩)).status = some .evaluated ∧
      ringing after.current.journal =
        some [0x77, 0x3a, 0x31, 0x3a, 0x31, 0x30, 0x30, 0x30] ∧
      after.exposed = [] := by
  intro faults device after
  have start : Device.view { slots := oneAlarmStore } =
      { current := { status := .loaded, snapshot := oneAlarmSchedule, generation := 1 } } := by
    rw [Device.view, Device.current, scanSlots_oneAlarmStore]
  have first : device.view = _ := Device.run_view faults _ _
  have second : after.view = _ := Device.step_view faults device _
  have outcome := Device.result_view faults device (.tick ⟨true, 1001, 6, [0x31]⟩)
  rw [first, start] at second outcome
  refine ⟨?_, ?_, ?_⟩
  · rw [Device.outcome, ← congrArg Prod.fst outcome]
    decide +kernel
  · rw [← Device.view_current, second]
    decide +kernel
  · rw [← Device.view_exposed, second]
    decide +kernel

end DawnDock
