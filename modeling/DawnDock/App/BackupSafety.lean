import DawnDock.App.BackupFlow
import DawnDock.Library.Mealy

/-!
Backup flows over any run of steps.

What a step can do is said once (`step_effect`): `Effect` for a call, `Resumes` for the end of
a task. From it:

* `backup_flow_safe`: the mirror goes back only with a permission, the three stores are
  replaced together, and what is refused or fails leaves them alone;
* `confirmations_follow_warnings`: what is confirmed is what was asked last;
* `operations_serialized`: the controller has one operation at a time, and each one ends.
-/

namespace DawnDock.App

open BackupCoordinator

variable {δ : Type} {platform : Platform δ}

/-! ### Restores -/

section Restores

variable (live : LiveStores) (backup : ParsedBackup platform)

/-- The mirror is newer than the backup. -/
def Stale : Prop := backup.contents.knownRevision < live.scheduleStore.knownRevision

/-- The three stores as the backup has them. -/
def ParsedBackup.restored : LiveStores := backup.contents.restored

theorem applyBackup_parsed : applyBackup live backup.contents =
    (((.ok (.fromBackup backup.contents)), backup.restored) :
      Except (Thrown δ) BackupSummary × LiveStores) := by
  rw [applyBackup, CompanionBackup.applyTo_sound backup.sound]
  rfl

theorem restoreBackup_allowed {allowStale : Bool}
    (allowed : allowStale = true ∨ ¬ Stale live backup) :
    restoreBackup live backup.contents allowStale =
      ((.ok (.fromBackup backup.contents), backup.restored) :
        Except (Thrown δ) BackupSummary × LiveStores) := by
  have passes : validateStaleGuard live backup.contents allowStale =
      (.ok () : Except (Thrown δ) Unit) := by
    refine if_neg ?_
    rw [Bool.and_eq_true, Bool.not_eq_true', decide_eq_true_eq]
    rintro ⟨asked, stale⟩
    rcases allowed with allowed | fresh
    · rw [asked] at allowed
      cases allowed
    · exact fresh stale
  rw [restoreBackup, passes]
  exact applyBackup_parsed live backup

theorem restoreBackup_stale (stale : Stale live backup) : ∃ exception : BackupException δ,
    restoreBackup live backup.contents false = (.error (.backup exception), live) := by
  have guarded : (!false && decide (backup.contents.knownRevision <
      live.scheduleStore.knownRevision)) = true := by
    simpa [Stale] using stale
  constructor
  rw [restoreBackup, validateStaleGuard, if_pos guarded]
  rfl

end Restores

/-! ### What a step does -/

namespace BackupTask

/-- The operation of the controller that awaits the task. -/
def operation? : BackupTask δ → Option BackupOperation
  | .exportBackup (.controller _) _ => some .exportBackup
  | .inspect (.controller _) => some .inspect
  | .load _ => some .restore
  | .erase (.controller _) => some .erase
  | .eraseLocalData (.controller _) => some .eraseLocalData
  | .localDataErased _ => some .eraseLocalData
  | .exportBackup .direct _ | .inspect .direct | .restore _ | .erase .direct
  | .eraseLocalData .direct => none

end BackupTask

namespace BackupFlowState

def isBusy : BackupFlowState platform → Bool
  | .busy .. => true
  | _ => false

/-- A warning, or the end of an operation that did not succeed. -/
def refuses : BackupFlowState platform → Bool
  | .staleConfirmationRequired .. | .failure .. | .absent _ => true
  | _ => false

/-- A warning about the backup. -/
def warnsAbout (backup : ParsedBackup platform) (state : BackupFlowState platform) : Prop :=
  ∃ summary current revision, state = .staleConfirmationRequired backup summary current revision

end BackupFlowState

namespace BackupSystem

/-- The revision of the mirror. -/
def revision (system : BackupSystem platform) : Int64 := system.live.scheduleStore.knownRevision

def setState (system : BackupSystem platform) (state : BackupFlowState platform) :
    BackupSystem platform :=
  { system with controller := { system.controller with state } }

end BackupSystem

/-- What the end of a task does; `base` is the system without the task. -/
inductive Resumes (base : BackupSystem platform) (conditions : FileConditions δ) :
    BackupTask δ → BackupOutput δ → BackupSystem platform → Prop where
  /-- A caller other than the controller hears of it. -/
  | reported {task : BackupTask δ} (out : BackupOutput δ) (direct : task.operation? = none) :
      Resumes base conditions task out base
  | restored {allowStale : Bool} {answer : BackupAnswer} (backup : ParsedBackup platform)
      (loaded : conditions.load platform = .ok (some backup))
      (allowed : allowStale = true ∨ ¬ Stale base.live backup) :
      Resumes base conditions (.restore allowStale) (some (.ok answer))
        { base with live := backup.restored }
  | erased {answer : BackupAnswer} (deleted : conditions.failure = none) :
      Resumes base conditions (.eraseLocalData .direct) (some (.ok answer))
        { base with live := .empty }
  | erasing {previousSummary : Option BackupSummary} (live : LiveStores)
      (deleted : live = base.live ∨ conditions.failure = none ∧ live = .empty) :
      Resumes base conditions (.eraseLocalData (.controller previousSummary)) none
        { base with live, tasks := base.tasks ++ [.localDataErased conditions.done] }
  /-- The controller's operation is over, and the stores are as they were. -/
  | concluded {task : BackupTask δ} {operation : BackupOperation}
      (state : BackupFlowState platform) (awaited : task.operation? = some operation)
      (idle : state.isBusy = false)
      (warns : ∀ backup, state.warnsAbout backup →
        conditions.load platform = .ok (some backup) ∧ Stale base.live backup ∧
          state = .stale base.live backup ∧ ∃ previousSummary, task = .load previousSummary)
      (asks : state ≠ .eraseLocalConfirmationRequired) :
      Resumes base conditions task (some (.ok (.flag true)))
        { base with controller := { state, isBusy := false } }
  | loaded {previousSummary : Option BackupSummary} {now : DateTime}
      (backup : ParsedBackup platform) (summary : BackupSummary)
      (fresh : ¬ Stale base.live backup) :
      Resumes base conditions (.load previousSummary) (some (.ok (.flag true)))
        { base with
          live := backup.restored
          controller := { state := .success .restore summary now, isBusy := false } }

/-- The calls of the controller. -/
def BackupEvent.isControllerCall : BackupEvent platform → Bool
  | .exportBackup _ | .inspect | .restore | .confirmStaleRestore _ | .cancelStaleConfirmation _
  | .restoreParsedBackup .. | .requestEraseLocalData | .cancelEraseLocalData
  | .confirmEraseLocalData | .erase => true
  | .coordinatorExport _ | .coordinatorInspect | .coordinatorRestore _
  | .coordinatorRestoreBackup .. | .coordinatorErase | .coordinatorEraseLocalData | .edit _
  | .resume .. => false

/-- What a step does. -/
inductive Effect (system : BackupSystem platform) :
    BackupEvent platform → BackupOutput δ → BackupSystem platform → Prop where
  | busy {event : BackupEvent platform} (call : event.isControllerCall = true) :
      Effect system event (some (.ok (.flag false))) system
  | threw {event : BackupEvent platform} (error : FlowError δ) :
      Effect system event (some (.error error)) system
  | noTask {index : Nat} {conditions : FileConditions δ} {now : DateTime}
      (absent : system.tasks[index]? = none) :
      Effect system (.resume index conditions now) none system
  | began {event : BackupEvent platform} {operation : BackupOperation}
      (previousSummary : Option BackupSummary) (task : BackupTask δ)
      (call : event.isControllerCall = true) (idle : system.controller.isBusy = false)
      (awaited : task.operation? = some operation)
      (confirmed : ∀ caller, task = .eraseLocalData caller → event = .confirmEraseLocalData ∧
        system.controller.state = .eraseLocalConfirmationRequired) :
      Effect system event none (system.start operation previousSummary task).2
  | spawned {event : BackupEvent platform} (task : BackupTask δ) (direct : task.operation? = none) :
      Effect system event none (system.spawn task).2
  | confirmed {now : DateTime} {backup : ParsedBackup platform} (result : BackupSummary)
      {completed : DateTime} (idle : system.controller.isBusy = false)
      (warned : system.controller.state.warnsAbout backup) :
      Effect system (.confirmStaleRestore now) (some (.ok (.flag true)))
        { system with
          live := backup.restored
          controller := { state := .success .restore result completed, isBusy := false } }
  | cancelled {now : DateTime} {backup : ParsedBackup platform} (summary : BackupSummary)
      {completed : DateTime} (warned : system.controller.state.warnsAbout backup) :
      Effect system (.cancelStaleConfirmation now) (some (.ok (.flag true)))
        (system.setState (.success .inspect summary completed))
  | warned {now : DateTime} (backup : ParsedBackup platform)
      (idle : system.controller.isBusy = false) (stale : Stale system.live backup) :
      Effect system (.restoreParsedBackup backup false now) (some (.ok (.flag true)))
        (system.setState (.stale system.live backup))
  | restored {now : DateTime} (backup : ParsedBackup platform) {allowStale : Bool}
      (summary : BackupSummary) {completed : DateTime} (idle : system.controller.isBusy = false)
      (allowed : allowStale = true ∨ ¬ Stale system.live backup) :
      Effect system (.restoreParsedBackup backup allowStale now) (some (.ok (.flag true)))
        { system.setState (.success .restore summary completed) with live := backup.restored }
  | requested (idle : system.controller.isBusy = false) :
      Effect system .requestEraseLocalData (some (.ok (.flag true)))
        (system.setState .eraseLocalConfirmationRequired)
  | withdrawn (idle : system.controller.isBusy = false) :
      Effect system .cancelEraseLocalData (some (.ok (.flag true))) (system.setState .initial)
  | coordinatorRestored {answer : BackupAnswer} (backup : ParsedBackup platform)
      {allowStale : Bool} (allowed : allowStale = true ∨ ¬ Stale system.live backup) :
      Effect system (.coordinatorRestoreBackup backup allowStale) (some (.ok answer))
        { system with live := backup.restored }
  | edited {edit : LiveEdit} (live : LiveStores) (edited : system.live.edit edit = .ok live) :
      Effect system (.edit edit) (some (.ok .done)) { system with live }
  | resumed {index : Nat} {conditions : FileConditions δ} {now : DateTime} {task : BackupTask δ}
      {out : BackupOutput δ} {after : BackupSystem platform}
      (awaited : system.tasks[index]? = some task)
      (resumes : Resumes { system with tasks := system.tasks.eraseIdx index } conditions task out
        after) :
      Effect system (.resume index conditions now) out after

section Effects

variable {base : BackupSystem platform} {conditions : FileConditions δ} {now : DateTime}

theorem concluded_quiet (operation : BackupOperation) (previousSummary : Option BackupSummary)
    (result : Except (FlowError δ) (Option BackupSummary)) :
    let state : BackupFlowState platform := .concluded operation previousSummary now result
    state.isBusy = false ∧ (∀ backup, ¬ state.warnsAbout backup) ∧
      state ≠ .eraseLocalConfirmationRequired := by
  refine ⟨?_, ?_, ?_⟩
  all_goals
    cases result with
    | error error => simp [BackupFlowState.concluded, BackupFlowState.isBusy,
        BackupFlowState.warnsAbout]
    | ok summary =>
        cases summary <;> simp [BackupFlowState.concluded, BackupFlowState.isBusy,
          BackupFlowState.warnsAbout]

/-- The controller's operation ends with a state that asks nothing. -/
theorem Resumes.of_concluded (now : DateTime) {task : BackupTask δ} {operation : BackupOperation}
    (awaited : task.operation? = some operation) (shown : BackupOperation)
    (previousSummary : Option BackupSummary)
    (result : Except (FlowError δ) (Option BackupSummary)) :
    Resumes base conditions task (some (.ok (.flag true)))
      (base.finish (.concluded shown previousSummary now result)).2 := by
  obtain ⟨idle, silent, asks⟩ := concluded_quiet shown previousSummary result
  exact .concluded _ awaited idle (fun backup warns => absurd warns (silent backup)) asks

theorem report_resumes {task : BackupTask δ} {operation : BackupOperation} {caller : Caller}
    (controller : ∀ previousSummary, caller = .controller previousSummary →
      task.operation? = some operation)
    (direct : caller = .direct → task.operation? = none)
    (result : Except (FlowError δ) (Option BackupSummary)) :
    Resumes base conditions task (base.report operation caller now result).1
      (base.report operation caller now result).2 := by
  cases caller with
  | controller previousSummary =>
      exact .of_concluded now (controller previousSummary rfl) operation previousSummary result
  | direct => exact .reported _ (direct rfl)

theorem finishLoad_resumes (previousSummary : Option BackupSummary) :
    Resumes base conditions (.load previousSummary)
      (base.finishLoad previousSummary now (conditions.load platform)).1
      (base.finishLoad previousSummary now (conditions.load platform)).2 := by
  have awaited : (BackupTask.load previousSummary : BackupTask δ).operation? = some .restore := rfl
  generalize loaded : conditions.load platform = result
  cases result with
  | error error => exact .of_concluded now awaited .restore previousSummary (.error error)
  | ok found =>
      cases found with
      | none => exact .of_concluded now awaited .restore previousSummary (.ok none)
      | some backup =>
          rw [BackupSystem.finishLoad]
          split
          · rename_i stale
            refine .concluded _ awaited rfl ?_ (fun same => by cases same)
            rintro other ⟨summary, current, revision, same⟩
            cases same
            exact ⟨loaded, stale, rfl, previousSummary, rfl⟩
          · rename_i fresh
            rw [restoreBackup_allowed base.live backup (.inr fresh)]
            exact .loaded backup _ fresh

theorem finishRestore_resumes (allowStale : Bool) :
    Resumes base conditions (.restore allowStale)
      (base.finishRestore allowStale (conditions.load platform)).1
      (base.finishRestore allowStale (conditions.load platform)).2 := by
  generalize loaded : conditions.load platform = result
  cases result with
  | error error => exact .reported _ rfl
  | ok found =>
      cases found with
      | none => exact .reported _ rfl
      | some backup =>
          rw [BackupSystem.finishRestore]
          by_cases allowed : allowStale = true ∨ ¬ Stale base.live backup
          · rw [restoreBackup_allowed base.live backup allowed]
            exact .restored backup loaded allowed
          · simp only [not_or, Bool.not_eq_true, not_not] at allowed
            obtain ⟨rfl, stale⟩ := allowed
            obtain ⟨exception, refused⟩ := restoreBackup_stale base.live backup stale
            rw [refused]
            exact .reported _ rfl

theorem afterAwait_resumes (task : BackupTask δ) :
    Resumes base conditions task (base.afterAwait conditions now task).1
      (base.afterAwait conditions now task).2 := by
  cases task with
  | exportBackup caller written =>
      refine report_resumes ?_ ?_ _
      · rintro previousSummary rfl
        rfl
      · rintro rfl
        rfl
  | inspect caller =>
      refine report_resumes ?_ ?_ _
      · rintro previousSummary rfl
        rfl
      · rintro rfl
        rfl
  | load previousSummary => exact finishLoad_resumes previousSummary
  | restore allowStale => exact finishRestore_resumes allowStale
  | erase caller =>
      cases caller with
      | controller previousSummary => exact .of_concluded now rfl .erase none _
      | direct => exact .reported _ rfl
  | eraseLocalData caller =>
      unfold BackupSystem.afterAwait
      cases caller with
      | controller previousSummary =>
          cases failed : conditions.failure with
          | none => exact .erasing _ (.inr ⟨failed, rfl⟩)
          | some error => exact .erasing _ (.inl rfl)
      | direct =>
          cases failed : conditions.failure with
          | none =>
              have done : conditions.done = .ok () := by
                rw [FileConditions.done, failed]
              rw [done]
              exact .erased failed
          | some error => exact .reported _ rfl
  | localDataErased result =>
      cases result with
      | ok => exact .concluded _ rfl rfl (by rintro _ ⟨_, _, _, ⟨⟩⟩) (by simp)
      | error error => exact .concluded _ rfl rfl (by rintro _ ⟨_, _, _, ⟨⟩⟩) (by simp)

variable (system : BackupSystem platform)

theorem confirmStaleRestore_effect (now : DateTime) :
    Effect system (.confirmStaleRestore now) (system.confirmStaleRestore now).1
      (system.confirmStaleRestore now).2 := by
  unfold BackupSystem.confirmStaleRestore
  split
  · exact .busy rfl
  rename_i idle
  split
  · rename_i backup summary current revision warning
    rw [restoreBackup_allowed system.live backup (.inl rfl)]
    exact .confirmed _ (Bool.not_eq_true _ ▸ idle) ⟨_, _, _, warning⟩
  · exact .threw _

theorem cancelStaleConfirmation_effect (now : DateTime) :
    Effect system (.cancelStaleConfirmation now) (system.cancelStaleConfirmation now).1
      (system.cancelStaleConfirmation now).2 := by
  unfold BackupSystem.cancelStaleConfirmation
  split
  · rename_i backup summary current revision warning
    exact .cancelled summary ⟨_, _, _, warning⟩
  · exact .busy rfl

theorem restoreParsedBackup_effect (backup : ParsedBackup platform) (allowStale : Bool)
    (now : DateTime) :
    Effect system (.restoreParsedBackup backup allowStale now)
      (system.restoreParsedBackup backup allowStale now).1
      (system.restoreParsedBackup backup allowStale now).2 := by
  unfold BackupSystem.restoreParsedBackup
  split
  · exact .busy rfl
  rename_i idle
  rw [Bool.not_eq_true] at idle
  split
  · rename_i stale
    rw [Bool.and_eq_true, Bool.not_eq_true', decide_eq_true_eq] at stale
    obtain ⟨rfl, stale⟩ := stale
    exact .warned backup idle stale
  · rename_i allowed
    rw [Bool.and_eq_true, Bool.not_eq_true', decide_eq_true_eq, not_and_or,
      Bool.not_eq_false] at allowed
    rw [restoreBackup_allowed system.live backup allowed]
    exact .restored backup _ idle allowed

theorem requestEraseLocalData_effect :
    Effect system .requestEraseLocalData system.requestEraseLocalData.1
      system.requestEraseLocalData.2 := by
  unfold BackupSystem.requestEraseLocalData
  split
  · exact .busy rfl
  · rename_i idle
    exact .requested (Bool.not_eq_true _ ▸ idle)

theorem cancelEraseLocalData_effect :
    Effect system .cancelEraseLocalData system.cancelEraseLocalData.1
      system.cancelEraseLocalData.2 := by
  unfold BackupSystem.cancelEraseLocalData
  split
  · split
    · exact .busy rfl
    · rename_i idle
      exact .withdrawn (Bool.not_eq_true _ ▸ idle)
  · exact .busy rfl

theorem confirmEraseLocalData_effect :
    Effect system .confirmEraseLocalData system.confirmEraseLocalData.1
      system.confirmEraseLocalData.2 := by
  unfold BackupSystem.confirmEraseLocalData
  split
  · exact .busy rfl
  rename_i idle
  split
  · rename_i asked
    exact .began none _ rfl (Bool.not_eq_true _ ▸ idle) rfl fun _ _ => ⟨rfl, asked⟩
  · exact .threw _

variable [Double δ]

/-- An operation of the controller that is not the erase of all data. -/
theorem began_effect {event : BackupEvent platform} (call : event.isControllerCall = true)
    (operation : BackupOperation) {task : BackupTask δ}
    (awaited : task.operation? = some operation) (other : operation ≠ .eraseLocalData)
    (previousSummary : Option BackupSummary)
    (stepped : system.step event =
      if system.controller.isBusy then system.answer false
      else system.start operation previousSummary task) :
    Effect system event (system.step event).1 (system.step event).2 := by
  rw [stepped]
  split
  · exact .busy call
  · rename_i idle
    refine .began previousSummary task call (Bool.not_eq_true _ ▸ idle) awaited ?_
    rintro caller rfl
    cases caller with
    | controller _ => exact absurd (Option.some.inj awaited).symm other
    | direct => cases awaited

theorem coordinatorRestoreBackup_effect (backup : ParsedBackup platform) (allowStale : Bool) :
    Effect system (.coordinatorRestoreBackup backup allowStale)
      (system.step (.coordinatorRestoreBackup backup allowStale)).1
      (system.step (.coordinatorRestoreBackup backup allowStale)).2 := by
  rw [BackupSystem.step]
  by_cases allowed : allowStale = true ∨ ¬ Stale system.live backup
  · rw [restoreBackup_allowed system.live backup allowed]
    exact .coordinatorRestored backup allowed
  · simp only [not_or, Bool.not_eq_true, not_not] at allowed
    obtain ⟨rfl, stale⟩ := allowed
    obtain ⟨exception, refused⟩ := restoreBackup_stale system.live backup stale
    rw [refused]
    exact .threw _

theorem step_effect (event : BackupEvent platform) :
    Effect system event (system.step event).1 (system.step event).2 := by
  cases event with
  | exportBackup now =>
      exact began_effect system rfl .exportBackup rfl (by simp) _ rfl
  | inspect => exact began_effect system rfl .inspect rfl (by simp) _ rfl
  | restore => exact began_effect system rfl .restore rfl (by simp) _ rfl
  | erase => exact began_effect system rfl .erase rfl (by simp) _ rfl
  | confirmStaleRestore now => exact confirmStaleRestore_effect system now
  | cancelStaleConfirmation now => exact cancelStaleConfirmation_effect system now
  | restoreParsedBackup backup allowStale now =>
      exact restoreParsedBackup_effect system backup allowStale now
  | requestEraseLocalData => exact requestEraseLocalData_effect system
  | cancelEraseLocalData => exact cancelEraseLocalData_effect system
  | confirmEraseLocalData => exact confirmEraseLocalData_effect system
  | coordinatorExport | coordinatorInspect | coordinatorRestore | coordinatorErase
  | coordinatorEraseLocalData => exact .spawned _ rfl
  | coordinatorRestoreBackup backup allowStale =>
      exact coordinatorRestoreBackup_effect system backup allowStale
  | edit edit =>
      rw [BackupSystem.step]
      cases edited : system.live.edit edit with
      | ok live => exact .edited live edited
      | error error => exact .threw _
  | resume index conditions now =>
      rw [BackupSystem.step]
      cases found : system.tasks[index]? with
      | none => exact .noTask found
      | some task => exact .resumed found (afterAwait_resumes task)

end Effects

/-! ### One operation at a time -/

/-- What the controller awaits. -/
def BackupSystem.controllerTasks (system : BackupSystem platform) : List (BackupTask δ) :=
  system.tasks.filter fun task => task.operation?.isSome

/-- A busy controller shows the one operation that it awaits. -/
structure Serialized (system : BackupSystem platform) : Prop where
  idle : system.controller.isBusy = false →
    system.controllerTasks = [] ∧ system.controller.state.isBusy = false
  busy : system.controller.isBusy = true → ∃ task operation previousSummary,
    system.controllerTasks = [task] ∧ task.operation? = some operation ∧
      system.controller.state = .busy operation previousSummary

section Serialized

variable {system after : BackupSystem platform} {event : BackupEvent platform}
  {out : BackupOutput δ}

theorem serialized_create (live : LiveStores) :
    Serialized (BackupSystem.create live : BackupSystem platform) where
  idle _ := ⟨rfl, rfl⟩
  busy busy := by cases busy

/-- What keeps the tasks of the controller, and leaves it idle in another state. -/
theorem Serialized.setState (serialized : Serialized system)
    (idle : system.controller.isBusy = false) {state : BackupFlowState platform}
    (plain : state.isBusy = false) : Serialized (system.setState state) where
  idle _ := ⟨(serialized.idle idle).1, plain⟩
  busy busy := by
    have same : system.controller.isBusy = true := busy
    rw [idle] at same
    cases same

theorem Serialized.setLive (serialized : Serialized system) (live : LiveStores) :
    Serialized { system with live } :=
  ⟨serialized.idle, serialized.busy⟩

theorem Serialized.idle_of_state (serialized : Serialized system)
    (plain : system.controller.state.isBusy = false) : system.controller.isBusy = false := by
  cases busy : system.controller.isBusy with
  | false => rfl
  | true =>
      obtain ⟨task, operation, previousSummary, -, -, shown⟩ := serialized.busy busy
      rw [shown] at plain
      cases plain

theorem exists_split {tasks : List (BackupTask δ)} {index : Nat} {task : BackupTask δ}
    (found : tasks[index]? = some task) :
    ∃ front back, tasks = front ++ task :: back ∧ tasks.eraseIdx index = front ++ back := by
  obtain ⟨inside, rfl⟩ := List.getElem?_eq_some_iff.mp found
  refine ⟨tasks.take index, tasks.drop (index + 1), ?_, List.eraseIdx_eq_take_drop_succ _ _⟩
  rw [List.getElem_cons_drop, List.take_append_drop]

/-- Taking away a task of another caller. -/
theorem controllerTasks_erase_direct {index : Nat} {task : BackupTask δ}
    (found : system.tasks[index]? = some task) (direct : task.operation? = none) :
    ({ system with tasks := system.tasks.eraseIdx index } : BackupSystem platform).controllerTasks =
      system.controllerTasks := by
  obtain ⟨front, back, split, erased⟩ := exists_split found
  change (system.tasks.eraseIdx index).filter _ = system.tasks.filter _
  rw [erased, split]
  simp [direct]

/-- Taking away the one task of the controller. -/
theorem Serialized.controllerTasks_erase (serialized : Serialized system) {index : Nat}
    {task : BackupTask δ} {operation : BackupOperation}
    (found : system.tasks[index]? = some task) (awaited : task.operation? = some operation) :
    system.controller.isBusy = true ∧
      ({ system with tasks := system.tasks.eraseIdx index } :
        BackupSystem platform).controllerTasks = [] ∧
      ∃ previousSummary, system.controller.state = .busy operation previousSummary := by
  obtain ⟨front, back, split, erased⟩ := exists_split found
  have held : system.controllerTasks =
      front.filter (fun task => task.operation?.isSome) ++
        task :: back.filter fun task => task.operation?.isSome := by
    simp [BackupSystem.controllerTasks, split, awaited]
  cases busy : system.controller.isBusy with
  | false =>
      rw [(serialized.idle busy).1] at held
      exact absurd held.symm (List.append_ne_nil_of_right_ne_nil _ (List.cons_ne_nil _ _))
  | true =>
      obtain ⟨only, shown, previousSummary, single, own, state⟩ := serialized.busy busy
      rw [single] at held
      obtain ⟨noFront, noBack⟩ : front.filter (fun task => task.operation?.isSome) = [] ∧
          [only] = task :: back.filter fun task => task.operation?.isSome := by
        cases kept : front.filter fun task => task.operation?.isSome with
        | nil =>
            rw [kept] at held
            exact ⟨rfl, held⟩
        | cons first rest =>
            rw [kept] at held
            exact absurd (List.cons.inj held).2.symm
              (List.append_ne_nil_of_right_ne_nil _ (List.cons_ne_nil _ _))
      obtain ⟨rfl, none⟩ := List.cons.inj noBack
      rw [awaited] at own
      cases own
      refine ⟨rfl, ?_, previousSummary, state⟩
      rw [BackupSystem.controllerTasks, erased, List.filter_append, noFront, ← none]
      rfl

theorem Resumes.serialized {index : Nat} {conditions : FileConditions δ} {task : BackupTask δ}
    (serialized : Serialized system) (found : system.tasks[index]? = some task)
    (resumes : Resumes { system with tasks := system.tasks.eraseIdx index } conditions task out
      after) : Serialized after := by
  have direct (none : task.operation? = none) (live : LiveStores) :
      Serialized { system with live, tasks := system.tasks.eraseIdx index } := by
    have same := controllerTasks_erase_direct found none
    constructor
    · intro idle
      exact ⟨same.trans (serialized.idle idle).1, (serialized.idle idle).2⟩
    · intro busy
      obtain ⟨only, operation, previousSummary, single, shown⟩ := serialized.busy busy
      exact ⟨only, operation, previousSummary, same.trans single, shown⟩
  cases resumes with
  | reported _ none => exact direct none system.live
  | restored => exact direct rfl _
  | erased => exact direct rfl _
  | erasing live deleted =>
      obtain ⟨busy, none, previousSummary, state⟩ := serialized.controllerTasks_erase found rfl
      constructor
      · intro idle
        have same : system.controller.isBusy = false := idle
        rw [busy] at same
        cases same
      · intro _
        refine ⟨.localDataErased conditions.done, .eraseLocalData, previousSummary, ?_, rfl, state⟩
        rw [BackupSystem.controllerTasks, List.filter_append]
        exact congrArg (· ++ _) none
  | concluded state awaited plain =>
      obtain ⟨-, none, -⟩ := serialized.controllerTasks_erase found awaited
      exact ⟨fun _ => ⟨none, plain⟩, fun busy => by cases busy⟩
  | loaded =>
      obtain ⟨-, none, -⟩ := serialized.controllerTasks_erase found rfl
      exact ⟨fun _ => ⟨none, rfl⟩, fun busy => by cases busy⟩

theorem Effect.serialized (effect : Effect system event out after)
    (serialized : Serialized system) : Serialized after := by
  cases effect with
  | busy | threw | noTask => exact serialized
  | began previousSummary task call idle awaited =>
      constructor
      · intro idle
        cases idle
      · intro _
        refine ⟨task, _, previousSummary, ?_, awaited, rfl⟩
        have none := (serialized.idle idle).1
        unfold BackupSystem.controllerTasks at none
        simp [BackupSystem.start, BackupSystem.spawn, BackupSystem.controllerTasks, none, awaited]
  | spawned task direct =>
      have same : (system.spawn task).2.controllerTasks = system.controllerTasks := by
        simp [BackupSystem.spawn, BackupSystem.controllerTasks, direct]
      constructor
      · intro idle
        exact ⟨same.trans (serialized.idle idle).1, (serialized.idle idle).2⟩
      · intro busy
        obtain ⟨only, operation, previousSummary, single, shown⟩ := serialized.busy busy
        exact ⟨only, operation, previousSummary, same.trans single, shown⟩
  | confirmed result idle => exact ⟨fun _ => ⟨(serialized.idle idle).1, rfl⟩, fun busy => by cases busy⟩
  | cancelled summary warned =>
      obtain ⟨_, _, _, warning⟩ := warned
      exact serialized.setState (serialized.idle_of_state (warning ▸ rfl)) rfl
  | warned backup idle => exact serialized.setState idle rfl
  | restored backup summary idle => exact (serialized.setState idle rfl).setLive backup.restored
  | requested idle => exact serialized.setState idle rfl
  | withdrawn idle => exact serialized.setState idle rfl
  | coordinatorRestored | edited => exact serialized.setLive _
  | resumed awaited resumes => exact resumes.serialized serialized awaited

end Serialized

/-! ### The live stores -/

/-- The steps that may take the mirror back. -/
inductive Permission (system : BackupSystem platform) : BackupEvent platform → Prop where
  | confirmed {backup : ParsedBackup platform} {now : DateTime} :
      system.controller.isBusy = false → system.controller.state.warnsAbout backup →
      Permission system (.confirmStaleRestore now)
  | parsed {backup : ParsedBackup platform} {now : DateTime} :
      system.controller.isBusy = false → Permission system (.restoreParsedBackup backup true now)
  | coordinator {backup : ParsedBackup platform} :
      Permission system (.coordinatorRestoreBackup backup true)
  | restore {index : Nat} {conditions : FileConditions δ} {now : DateTime} :
      system.tasks[index]? = some (.restore true) → Permission system (.resume index conditions now)
  | erase {index : Nat} {caller : Caller} {conditions : FileConditions δ} {now : DateTime} :
      system.tasks[index]? = some (.eraseLocalData caller) → conditions.failure = none →
      Permission system (.resume index conditions now)

/-- A call of the controller, or the end of what it awaits. -/
def BackupEvent.ofController (system : BackupSystem platform) : BackupEvent platform → Bool
  | .resume index _ _ => system.tasks[index]?.any fun task => task.operation?.isSome
  | event => event.isControllerCall

section Live

variable {system after : BackupSystem platform} {event : BackupEvent platform}
  {out : BackupOutput δ}

/-- The stores stay, are edited, are those of a backup or are empty. -/
theorem Effect.live_cases (effect : Effect system event out after) :
    after.live = system.live ∨
      (∃ edit, event = .edit edit ∧ system.live.edit edit = .ok after.live) ∨
      (∃ backup : ParsedBackup platform, after.live = backup.restored ∧
        (Stale system.live backup → Permission system event)) ∨
      (after.live = .empty ∧ Permission system event) := by
  cases effect with
  | busy | threw | noTask | began | spawned | cancelled | warned | requested | withdrawn =>
      exact .inl rfl
  | @confirmed now backup result completed idle warned =>
      exact .inr (.inr (.inl ⟨backup, rfl, fun _ => .confirmed idle warned⟩))
  | restored backup summary idle allowed =>
      refine .inr (.inr (.inl ⟨backup, rfl, fun stale => ?_⟩))
      rcases allowed with rfl | fresh
      · exact .parsed idle
      · exact absurd stale fresh
  | coordinatorRestored backup allowed =>
      refine .inr (.inr (.inl ⟨backup, rfl, fun stale => ?_⟩))
      rcases allowed with rfl | fresh
      · exact .coordinator
      · exact absurd stale fresh
  | @edited edit live edited => exact .inr (.inl ⟨edit, rfl, edited⟩)
  | resumed awaited resumes =>
      cases resumes with
      | reported | concluded => exact .inl rfl
      | restored backup loaded allowed =>
          refine .inr (.inr (.inl ⟨backup, rfl, fun stale => ?_⟩))
          rcases allowed with rfl | fresh
          · exact .restore awaited
          · exact absurd stale fresh
      | erased deleted => exact .inr (.inr (.inr ⟨rfl, .erase awaited deleted⟩))
      | erasing live deleted =>
          rcases deleted with same | ⟨deleted, rfl⟩
          · exact .inl same
          · exact .inr (.inr (.inr ⟨rfl, .erase awaited deleted⟩))
      | loaded backup summary fresh =>
          exact .inr (.inr (.inl ⟨backup, rfl, fun stale => absurd stale fresh⟩))

theorem Effect.fits (effect : Effect system event out after) (fit : system.live.Fits) :
    after.live.Fits := by
  obtain same | ⟨edit, -, edited⟩ | ⟨backup, same, -⟩ | ⟨same, -⟩ := effect.live_cases
  · exact same ▸ fit
  · exact (LiveStores.edit_fits fit edited).1
  · exact same ▸ CompanionBackup.restored_fits backup.sound
  · exact same ▸ LiveStores.fits_empty

theorem Effect.permission (effect : Effect system event out after) (fit : system.live.Fits)
    (back : after.revision < system.revision) : Permission system event := by
  unfold BackupSystem.revision at back
  obtain same | ⟨edit, -, edited⟩ | ⟨backup, same, permitted⟩ | ⟨-, permitted⟩ := effect.live_cases
  · rw [same] at back
    exact absurd back (Int64.lt_irrefl)
  · exact absurd (LiveStores.edit_fits fit edited).2 (Int64.not_le.mpr back)
  · rw [same] at back
    exact permitted back
  · exact permitted

/-- An operation that throws or refuses leaves the stores alone. -/
theorem Effect.refused (effect : Effect system event out after) (serialized : Serialized system)
    (refused : (∃ error, out = some (.error error)) ∨
      event.ofController system = true ∧ after.controller.state.refuses = true) :
    after.live = system.live := by
  cases effect with
  | busy | threw | noTask | began | spawned | cancelled | warned | requested | withdrawn => rfl
  | confirmed | restored =>
      rcases refused with ⟨error, threw⟩ | ⟨-, refuses⟩
      · cases threw
      · cases refuses
  | coordinatorRestored | edited =>
      rcases refused with ⟨error, threw⟩ | ⟨own, -⟩
      · cases threw
      · cases own
  | resumed awaited resumes =>
      cases resumes with
      | reported | concluded => rfl
      | restored | erased =>
          rcases refused with ⟨error, threw⟩ | ⟨own, -⟩
          · cases threw
          · rw [BackupEvent.ofController, awaited] at own
            cases own
      | loaded =>
          rcases refused with ⟨error, threw⟩ | ⟨-, refuses⟩
          · cases threw
          · cases refuses
      | erasing =>
          rcases refused with ⟨error, threw⟩ | ⟨-, refuses⟩
          · cases threw
          · obtain ⟨-, -, previousSummary, state⟩ := serialized.controllerTasks_erase awaited rfl
            have shown : system.controller.state.refuses = true := refuses
            rw [state] at shown
            cases shown

end Live

/-! ### Warnings -/

/-- The controller warns about the backup: it was loaded by `restore`, or given as parsed. -/
inductive Warns (system : BackupSystem platform) (backup : ParsedBackup platform) :
    BackupEvent platform → Prop where
  | parsed {now : DateTime} : Stale system.live backup →
      Warns system backup (.restoreParsedBackup backup false now)
  | loaded {index : Nat} {previousSummary : Option BackupSummary} {conditions : FileConditions δ}
      {now : DateTime} : system.tasks[index]? = some (.load previousSummary) →
      conditions.load platform = .ok (some backup) → Stale system.live backup →
      Warns system backup (.resume index conditions now)

section Warnings

variable {system after : BackupSystem platform} {event : BackupEvent platform}
  {out : BackupOutput δ}

/-- A new warning names the revision that the mirror then has. -/
theorem Effect.warns (effect : Effect system event out after) {backup : ParsedBackup platform}
    (warned : after.controller.state.warnsAbout backup)
    (changed : system.controller.state ≠ after.controller.state) :
    Warns system backup event ∧ after.controller.state = .stale system.live backup := by
  obtain ⟨summary, current, revision, state⟩ := warned
  cases effect with
  | busy | threw | noTask | spawned | coordinatorRestored | edited => exact absurd rfl changed
  | began | confirmed | cancelled | restored | requested | withdrawn => cases state
  | warned other idle stale =>
      cases state
      exact ⟨.parsed stale, rfl⟩
  | resumed awaited resumes =>
      cases resumes with
      | reported | restored | erased | erasing => exact absurd rfl changed
      | loaded => cases state
      | concluded shown _ _ warns =>
          obtain ⟨loaded, stale, same, previousSummary, rfl⟩ := warns backup ⟨_, _, _, state⟩
          exact ⟨.loaded awaited loaded stale, same⟩

/-- The question whether to erase is asked by a request. -/
theorem Effect.asks (effect : Effect system event out after)
    (asked : after.controller.state = .eraseLocalConfirmationRequired)
    (changed : system.controller.state ≠ .eraseLocalConfirmationRequired) :
    event = .requestEraseLocalData := by
  cases effect with
  | busy | threw | noTask | spawned | coordinatorRestored | edited => exact absurd asked changed
  | began | confirmed | cancelled | warned | restored | withdrawn => cases asked
  | requested => rfl
  | resumed awaited resumes =>
      cases resumes with
      | reported | restored | erased | erasing => exact absurd asked changed
      | loaded => cases asked
      | concluded shown _ _ _ other => exact absurd asked other

/-- The controller's erase of all data has begun. -/
def BackupSystem.Erasing (system : BackupSystem platform) : Prop :=
  ∃ previousSummary, .eraseLocalData (.controller previousSummary) ∈ system.tasks

/-- It begins where the question is answered. -/
theorem Effect.erasing (effect : Effect system event out after) (erasing : after.Erasing)
    (changed : ¬ system.Erasing) :
    event = .confirmEraseLocalData ∧
      system.controller.state = .eraseLocalConfirmationRequired := by
  obtain ⟨previousSummary, mem⟩ := erasing
  cases effect with
  | busy | threw | noTask | confirmed | cancelled | warned | restored | requested | withdrawn
  | coordinatorRestored | edited => exact absurd ⟨previousSummary, mem⟩ changed
  | began other task call idle awaited confirmed =>
      rcases List.mem_append.mp mem with held | added
      · exact absurd ⟨previousSummary, held⟩ changed
      · exact confirmed _ (List.mem_singleton.mp added).symm
  | spawned task direct =>
      rcases List.mem_append.mp mem with held | added
      · exact absurd ⟨previousSummary, held⟩ changed
      · rw [← List.mem_singleton.mp added] at direct
        cases direct
  | resumed awaited resumes =>
      have kept {task : BackupTask δ} {index : Nat} (left : task ∈ system.tasks.eraseIdx index) :
          task ∈ system.tasks := List.mem_of_mem_eraseIdx left
      cases resumes with
      | reported | restored | erased | loaded | concluded =>
          exact absurd ⟨previousSummary, kept mem⟩ changed
      | erasing =>
          rcases List.mem_append.mp mem with held | added
          · exact absurd ⟨previousSummary, kept held⟩ changed
          · cases List.mem_singleton.mp added

end Warnings

/-! ### Runs -/

section Runs

variable [Double δ]

def BackupSystem.run (system : BackupSystem platform) (events : List (BackupEvent platform)) :
    BackupSystem platform :=
  Mealy.after BackupSystem.step system events

theorem run_concat (system : BackupSystem platform) (events : List (BackupEvent platform))
    (event : BackupEvent platform) :
    system.run (events ++ [event]) = ((system.run events).step event).2 :=
  Mealy.after_concat events event

/-- `Mealy.exists_onset` -/
theorem exists_onset (P : BackupSystem platform → Prop) {system : BackupSystem platform}
    {events : List (BackupEvent platform)} (start : ¬ P system) (holds : P (system.run events)) :
    ∃ earlier event later, events = earlier ++ event :: later ∧ ¬ P (system.run earlier) ∧
      ∀ more, more <+: later → P (system.run (earlier ++ event :: more)) :=
  Mealy.exists_onset start holds

theorem run_serialized (live : LiveStores) (events : List (BackupEvent platform)) :
    Serialized ((BackupSystem.create live).run events) :=
  Mealy.after_invariant (serialized_create live)
    (fun system event serialized => (step_effect system event).serialized serialized) events

theorem run_fits {live : LiveStores} (fit : live.Fits) (events : List (BackupEvent platform)) :
    ((BackupSystem.create live).run events).live.Fits :=
  Mealy.after_invariant (P := fun system : BackupSystem platform => system.live.Fits) fit
    (fun system event fit => (step_effect system event).fits fit) events

/-- Whatever happened before, on files that fail and change in any way: a step keeps the
stores within their bounds. It takes the mirror back only with a permission. If it is not an
edit, it leaves the three stores as they were, as a backup has them, or empty. And if it
throws, or the controller answers it with a refusal, they are as they were. -/
theorem backup_flow_safe {live : LiveStores} (fit : live.Fits)
    (events : List (BackupEvent platform)) (event : BackupEvent platform) :
    let before := (BackupSystem.create live).run events
    let stepped := before.step event
    stepped.2.live.Fits ∧
      (stepped.2.revision < before.revision → Permission before event) ∧
      ((∀ edit, event ≠ .edit edit) → stepped.2.live = before.live ∨ stepped.2.live = .empty ∨
        ∃ backup : ParsedBackup platform, stepped.2.live = backup.restored) ∧
      ((∃ error, stepped.1 = some (.error error)) ∨
          event.ofController before = true ∧ stepped.2.controller.state.refuses = true →
        stepped.2.live = before.live) := by
  intro before stepped
  have fits : before.live.Fits := run_fits fit events
  have effect := step_effect before event
  refine ⟨effect.fits fits, effect.permission fits, ?_, effect.refused (run_serialized live events)⟩
  intro other
  obtain same | ⟨edit, edited, -⟩ | ⟨backup, same, -⟩ | ⟨same, -⟩ := effect.live_cases
  · exact .inl same
  · exact absurd edited (other edit)
  · exact .inr (.inr ⟨backup, same⟩)
  · exact .inr (.inl same)

/-- A draft, and the same alarm in the mirror of the device. -/
def draftedAndMirrored : LiveStores :=
  { LiveStores.empty with
    draftSet := { entries := [imported (utf16 "e1")], distinct := List.nodup_singleton _ }
    scheduleStore :=
      { committed := [imported (utf16 "e1")], knownRevision := 3, lastReceipt := none } }

/-- A saved backup that does not parse is offered for a restore: nothing changes. -/
theorem backup_flow_safe_malformed :
    let now : DateTime :=
      { microsecondsSinceEpoch := 0, isUtc := true, lower := by decide, upper := by decide }
    let platform : Platform Empty := CompanionBackup.decoding [] .null
    let events : List (BackupEvent platform) := [.restore]
    let before := (BackupSystem.create draftedAndMirrored).run events
    let resumed := before.step (.resume 0 { file := some .malformed } now)
    resumed.2.live = before.live ∧ resumed.2.live.Fits ∧ resumed.2.revision = 3 := by
  intro now platform events before resumed
  have fit : draftedAndMirrored.Fits :=
    { LiveStores.fits_empty with
      drafts := show 1 ≤ kMaxDrafts by decide
      mirror :=
        { committed := ⟨show 1 ≤ kMaxStoredAlarms by decide, List.nodup_singleton _⟩
          revision := by decide
          receipt := fun _ none => by cases none } }
  obtain ⟨fits, -, -, kept⟩ := backup_flow_safe fit events
    (.resume 0 { file := some .malformed } now)
  have same : resumed.2.live = before.live := kept (.inr ⟨rfl, rfl⟩)
  refine ⟨same, fits, ?_⟩
  rw [BackupSystem.revision, same]
  rfl

/-- What the controller has confirmed is what it asked. A warning that is shown was given by a
step that found the backup older than the mirror, and has stood since; confirmed, it restores
that backup. An erase of all data that is under way was requested and then confirmed, with
the question standing in between. -/
theorem confirmations_follow_warnings (live : LiveStores) (events : List (BackupEvent platform)) :
    let start : BackupSystem platform := .create live
    let system := start.run events
    (∀ backup, system.controller.state.warnsAbout backup →
      (∃ earlier warning later, events = earlier ++ warning :: later ∧
        Warns (start.run earlier) backup warning ∧
        system.controller.state = .stale (start.run earlier).live backup ∧
        ∀ more, more <+: later →
          (start.run (earlier ++ warning :: more)).controller.state = system.controller.state) ∧
      ∀ now, (system.step (.confirmStaleRestore now)).2.live = backup.restored) ∧
    (system.Erasing → ∃ earlier between later,
      events = earlier ++ .requestEraseLocalData :: between ++ .confirmEraseLocalData :: later ∧
      (∀ more, more <+: between →
        (start.run (earlier ++ .requestEraseLocalData :: more)).controller.state =
          .eraseLocalConfirmationRequired) ∧
      ∀ more, more <+: later →
        (start.run (earlier ++ .requestEraseLocalData :: between ++
          .confirmEraseLocalData :: more)).Erasing) := by
  intro start system
  constructor
  · intro backup warned
    constructor
    · have fresh : ¬ start.controller.state = system.controller.state := by
        intro same
        obtain ⟨_, _, _, state⟩ := warned
        rw [← same] at state
        cases state
      obtain ⟨earlier, warning, later, split, changed, since⟩ :=
        exists_onset (fun s => s.controller.state = system.controller.state) fresh
          (rfl : (start.run events).controller.state = _)
      have given : ((start.run earlier).step warning).2.controller.state =
          system.controller.state := by
        rw [← run_concat]
        exact since [] List.nil_prefix
      obtain ⟨warns, state⟩ := (step_effect (start.run earlier) warning).warns
        (given ▸ warned) (given ▸ changed)
      exact ⟨earlier, warning, later, split, warns, given ▸ state, since⟩
    · intro now
      obtain ⟨summary, current, revision, state⟩ := warned
      have idle := (run_serialized live events).idle_of_state (by rw [state]; rfl)
      change (system.confirmStaleRestore now).2.live = _
      rw [BackupSystem.confirmStaleRestore, if_neg (by rw [idle]; exact Bool.false_ne_true), state]
      dsimp only
      rw [restoreBackup_allowed system.live backup (.inl rfl)]
      rfl
  · intro erasing
    have calm : ¬ start.Erasing := by
      rintro ⟨_, mem⟩
      cases mem
    obtain ⟨before, confirm, later, rfl, changed, since⟩ :=
      exists_onset BackupSystem.Erasing calm erasing
    have began : ((start.run before).step confirm).2.Erasing := by
      rw [← run_concat]
      exact since [] List.nil_prefix
    obtain ⟨rfl, asked⟩ := (step_effect (start.run before) confirm).erasing began changed
    obtain ⟨earlier, request, between, rfl, silent, standing⟩ :=
      exists_onset (fun s => s.controller.state = .eraseLocalConfirmationRequired)
        (fun same => by cases same) asked
    have posed : ((start.run earlier).step request).2.controller.state =
        .eraseLocalConfirmationRequired := by
      rw [← run_concat]
      exact standing [] List.nil_prefix
    obtain rfl := (step_effect (start.run earlier) request).asks posed silent
    exact ⟨earlier, between, later, rfl, standing, since⟩

/-- A busy controller turns every call down. -/
theorem busy_step {system : BackupSystem platform} (serialized : Serialized system)
    (busy : system.controller.isBusy = true) {event : BackupEvent platform}
    (call : event.isControllerCall = true) :
    system.step event = (some (.ok (.flag false)), system) := by
  obtain ⟨task, operation, previousSummary, -, -, state⟩ := serialized.busy busy
  cases event with
  | exportBackup | inspect | restore | erase => exact if_pos busy
  | confirmStaleRestore | restoreParsedBackup | requestEraseLocalData | confirmEraseLocalData =>
      exact if_pos busy
  | cancelStaleConfirmation now =>
      change system.cancelStaleConfirmation now = _
      rw [BackupSystem.cancelStaleConfirmation, state]
      rfl
  | cancelEraseLocalData =>
      change system.cancelEraseLocalData = _
      rw [BackupSystem.cancelEraseLocalData, state]
      rfl
  | _ => cases call

omit [Double δ] in
/-- The end of a controller's task frees it, but for the first of the two ends of an erase. -/
theorem Resumes.frees {base after : BackupSystem platform} {conditions : FileConditions δ}
    {task : BackupTask δ} {operation : BackupOperation} {out : BackupOutput δ}
    (resumes : Resumes base conditions task out after)
    (awaited : task.operation? = some operation) :
    after.controller.isBusy = false ∨
      operation = .eraseLocalData ∧
        (∃ previousSummary, task = .eraseLocalData (.controller previousSummary)) ∧
        after.tasks = base.tasks ++ [.localDataErased conditions.done] := by
  cases resumes with
  | reported _ direct =>
      rw [awaited] at direct
      cases direct
  | restored | erased => cases awaited
  | @erasing previousSummary =>
      obtain rfl : BackupOperation.eraseLocalData = operation := Option.some.inj awaited
      exact .inr ⟨rfl, ⟨previousSummary, rfl⟩, rfl⟩
  | concluded | loaded => exact .inl rfl

theorem resume_frees {system : BackupSystem platform} {index : Nat}
    {result : Except (FlowError δ) Unit}
    (found : system.tasks[index]? = some (.localDataErased result))
    (conditions : FileConditions δ) (now : DateTime) :
    (system.step (.resume index conditions now)).2.controller.isBusy = false := by
  rw [BackupSystem.step, found]
  rfl

/-- In every run: the controller is busy just while it awaits one task, and shows whose. Then
it turns every call down; and the end of the task, whatever the files do, frees it, after a
second end for an erase of all data. -/
theorem operations_serialized (live : LiveStores) (events : List (BackupEvent platform)) :
    let system := (BackupSystem.create live).run events
    Serialized system ∧ (system.controller.isBusy = true →
      (∀ event : BackupEvent platform, event.isControllerCall = true →
        system.step event = (some (.ok (.flag false)), system)) ∧
      ∃ index task operation previousSummary, system.tasks[index]? = some task ∧
        system.controllerTasks = [task] ∧ task.operation? = some operation ∧
        system.controller.state = .busy operation previousSummary ∧
        ∀ conditions now,
          let next := (system.step (.resume index conditions now)).2
          next.controller.isBusy = false ∨
            operation = .eraseLocalData ∧
              (∃ summary, task = .eraseLocalData (.controller summary)) ∧
              ∃ last, next.tasks[last]? = some (.localDataErased conditions.done) ∧
                ∀ conditions now,
                  (next.step (.resume last conditions now)).2.controller.isBusy = false) := by
  intro system
  have serialized : Serialized system := run_serialized live events
  refine ⟨serialized, fun busy => ⟨fun event call => busy_step serialized busy call, ?_⟩⟩
  obtain ⟨task, operation, previousSummary, single, awaited, shown⟩ := serialized.busy busy
  have mem : task ∈ system.tasks := by
    have held : task ∈ system.controllerTasks := single ▸ List.mem_singleton_self task
    exact List.mem_of_mem_filter held
  obtain ⟨index, found⟩ := List.mem_iff_getElem?.mp mem
  refine ⟨index, task, operation, previousSummary, found, single, awaited, shown,
    fun conditions now => ?_⟩
  have resumes : Resumes { system with tasks := system.tasks.eraseIdx index } conditions task
      (system.step (.resume index conditions now)).1
      (system.step (.resume index conditions now)).2 := by
    rw [BackupSystem.step, found]
    exact afterAwait_resumes task
  rcases resumes.frees awaited with free | ⟨erase, own, left⟩
  · exact .inl free
  · refine .inr ⟨erase, own, (system.tasks.eraseIdx index).length, ?_⟩
    have last : ((system.step (.resume index conditions now)).2.tasks)[
        (system.tasks.eraseIdx index).length]? = some (.localDataErased conditions.done) := by
      rw [left]
      exact List.getElem?_concat_length
    exact ⟨last, fun conditions' now' => resume_frees last conditions' now'⟩

end Runs

end DawnDock.App
