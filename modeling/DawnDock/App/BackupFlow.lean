import DawnDock.App.LiveStores

/-!
Backups of the live stores (`backup_coordinator.dart`, `backup_flow_controller.dart`,
`local_backup_store.dart`).

An operation that awaits a file leaves a task. A step is a call of any method or the end of
what a task awaits, in any order (`BackupSystem.step`). What the files do is a condition that
the end of the task meets: any failure, and any content of the backup file.
-/

namespace DawnDock.App

structure BackupSummary where
  exportedAtUtc : DateTime
  profileCount : Nat
  draftCount : Nat
  knownRevision : Int64
  committedAlarmCount : Nat
  hasReceipt : Bool
deriving DecidableEq

def BackupSummary.fromBackup (backup : CompanionBackup) : BackupSummary where
  exportedAtUtc := backup.exportedAtUtc
  profileCount := backup.deviceProfiles.length
  draftCount := backup.drafts.length
  knownRevision := backup.knownRevision
  committedAlarmCount := backup.committedAlarms.length
  hasReceipt := backup.lastReceipt.isSome

variable {δ : Type}

/-- The constructor is private, and `parse` is all that calls it. -/
structure ParsedBackup (platform : Platform δ) where
  contents : CompanionBackup
  parsed : ∃ text, CompanionBackup.parse platform text = .ok contents

theorem ParsedBackup.sound {platform : Platform δ} (backup : ParsedBackup platform) :
    backup.contents.Sound := by
  obtain ⟨text, parsed⟩ := backup.parsed
  exact CompanionBackup.sound_of_parse parsed

/-! ### Files -/

/-- What an operation throws. -/
inductive FlowError (δ : Type) where
  | thrown (error : Thrown δ)
  | fileSystem (message : DartString)

/-- What `readAsString` makes of the backup file. -/
inductive BackupFile where
  | text (content : DartString)
  | malformed

/-- What the end of a task meets. -/
structure FileConditions (δ : Type) where
  failure : Option (FlowError δ) := none
  file : Option BackupFile := none

namespace FileConditions

/-- A write or a deletion. -/
def done (conditions : FileConditions δ) : Except (FlowError δ) Unit :=
  match conditions.failure with
  | some error => .error error
  | none => .ok ()

/-- `loadText` -/
def loadText (conditions : FileConditions δ) : Except (FlowError δ) (Option DartString) := do
  conditions.done
  match conditions.file with
  | none => return none
  | some .malformed =>
    .error (.thrown (.backup { message := .text "backup file is not valid UTF-8 text" }))
  | some (.text content) =>
    if utf8Length content > kMaxBackupTextBytes then
      .error (.thrown (.backup
        { message := .text ("backup exceeds " ++ toString kMaxBackupTextBytes ++ " bytes") }))
    else return some content

/-- `LocalBackupStore.load` -/
def load (platform : Platform δ) (conditions : FileConditions δ) :
    Except (FlowError δ) (Option (ParsedBackup platform)) := do
  match ← conditions.loadText with
  | none => return none
  | some content =>
    match parsed : CompanionBackup.parse platform content with
    | .ok contents => return some { contents, parsed := ⟨content, parsed⟩ }
    | .error error => .error (.thrown error)

end FileConditions

/-! ### The coordinator -/

namespace BackupCoordinator

/-- `export` before its `await`: the summary, and the text for the file. -/
def exportBackup [Double δ] (platform : Platform δ) (live : LiveStores) (exportedAtUtc : DateTime) :
    Except (Thrown δ) (BackupSummary × DartString) := do
  let stamp := exportedAtUtc.toUtc
  let profiles := live.profileStore.profiles
  let drafts := live.draftSet.drafts
  let revision := live.scheduleStore.knownRevision
  let committed := live.scheduleStore.committed
  let receipt := live.scheduleStore.lastReceipt
  let text ← CompanionBackup.encode platform stamp profiles drafts revision committed receipt
  if utf8Length text > kMaxBackupTextBytes then
    refuse ("backup exceeds " ++ toString kMaxBackupTextBytes ++ " bytes") none
  else
    return ({
      exportedAtUtc := stamp
      profileCount := profiles.length
      draftCount := drafts.length
      knownRevision := revision
      committedAlarmCount := committed.length
      hasReceipt := receipt.isSome }, text)

/-- `_validateStaleGuard` -/
def validateStaleGuard (live : LiveStores) (backup : CompanionBackup) (allowStale : Bool) :
    Except (Thrown δ) Unit :=
  if !allowStale && backup.knownRevision < live.scheduleStore.knownRevision then
    refuse ("backup revision " ++ toString backup.knownRevision.toInt ++
      " is older than current revision " ++ toString live.scheduleStore.knownRevision.toInt)
      (some (utf16 "/scheduleMirror/knownRevision"))
  else .ok ()

/-- `_applyBackup` -/
def applyBackup (live : LiveStores) (backup : CompanionBackup) :
    Except (Thrown δ) BackupSummary × LiveStores :=
  match backup.applyTo live with
  | (.ok (), live) => (.ok (.fromBackup backup), live)
  | (.error error, live) => (.error (.dart error), live)

def restoreBackup (live : LiveStores) (backup : CompanionBackup) (allowStale : Bool) :
    Except (Thrown δ) BackupSummary × LiveStores :=
  match validateStaleGuard live backup allowStale with
  | .error error => (.error error, live)
  | .ok () => applyBackup live backup

end BackupCoordinator

/-! ### The controller -/

inductive BackupOperation where
  | exportBackup | inspect | restore | erase | eraseLocalData
deriving DecidableEq, Repr

/-- A failure keeps the exception, whose message and path it shows. -/
inductive BackupFlowState (platform : Platform δ) where
  | initial
  | busy (operation : BackupOperation) (previousSummary : Option BackupSummary)
  | absent (operation : BackupOperation)
  | success (operation : BackupOperation) (summary : BackupSummary) (completedAtUtc : DateTime)
  | staleConfirmationRequired (pendingBackup : ParsedBackup platform) (summary : BackupSummary)
      (currentRevision backupRevision : Int64)
  | eraseLocalConfirmationRequired
  | localDataErased
  | failure (operation : BackupOperation) (error : FlowError δ)
      (previousSummary : Option BackupSummary)

namespace BackupFlowState

variable {platform : Platform δ}

def lastSummary : BackupFlowState platform → Option BackupSummary
  | .success _ summary _ => some summary
  | .busy _ previousSummary => previousSummary
  | .failure _ _ previousSummary => previousSummary
  | .staleConfirmationRequired _ summary _ _ => some summary
  | .initial | .absent _ | .eraseLocalConfirmationRequired | .localDataErased => none

def runtimeType : BackupFlowState platform → String
  | .initial => "BackupInitial"
  | .busy .. => "BackupBusy"
  | .absent _ => "BackupAbsent"
  | .success .. => "BackupSuccess"
  | .staleConfirmationRequired .. => "BackupStaleConfirmationRequired"
  | .eraseLocalConfirmationRequired => "BackupEraseLocalConfirmationRequired"
  | .localDataErased => "BackupLocalDataErased"
  | .failure .. => "BackupFailure"

/-- The warning about a backup older than the mirror. -/
def stale (live : LiveStores) (backup : ParsedBackup platform) : BackupFlowState platform :=
  .staleConfirmationRequired backup (.fromBackup backup.contents) live.scheduleStore.knownRevision
    backup.contents.knownRevision

/-- The state that the result of an operation gives. -/
def concluded (operation : BackupOperation) (previousSummary : Option BackupSummary)
    (now : DateTime) : Except (FlowError δ) (Option BackupSummary) → BackupFlowState platform
  | .ok (some summary) => .success operation summary now.toUtc
  | .ok none => .absent operation
  | .error error => .failure operation error previousSummary

end BackupFlowState

structure BackupFlowController (platform : Platform δ) where
  state : BackupFlowState platform
  isBusy : Bool

def BackupFlowController.create {platform : Platform δ} : BackupFlowController platform :=
  { state := .initial, isBusy := false }

/-! ### Steps -/

/-- Who awaits an operation of the coordinator. -/
inductive Caller where
  | controller (previousSummary : Option BackupSummary)
  | direct

/-- An operation at its `await`. -/
inductive BackupTask (δ : Type) where
  | exportBackup (caller : Caller) (written : Except (Thrown δ) (BackupSummary × DartString))
  | inspect (caller : Caller)
  /-- The controller's `restore`. -/
  | load (previousSummary : Option BackupSummary)
  /-- The coordinator's `restore`. -/
  | restore (allowStale : Bool)
  | erase (caller : Caller)
  | eraseLocalData (caller : Caller)
  /-- The coordinator is done; the controller has yet to hear of it. -/
  | localDataErased (result : Except (FlowError δ) Unit)

structure BackupSystem (platform : Platform δ) where
  live : LiveStores
  controller : BackupFlowController platform
  tasks : List (BackupTask δ)

/-- What a call returns. -/
inductive BackupAnswer where
  | flag (value : Bool)
  | summary (value : Option BackupSummary)
  | done
deriving DecidableEq

/-- What comes of a step; nothing comes of one that leaves a task. -/
abbrev BackupOutput (δ : Type) := Option (Except (FlowError δ) BackupAnswer)

/-- The summary of a backup that was applied. -/
def summaryOf (result : Except (Thrown δ) BackupSummary) :
    Except (FlowError δ) (Option BackupSummary) :=
  match result with
  | .ok summary => .ok (some summary)
  | .error error => .error (.thrown error)

inductive BackupEvent (platform : Platform δ) where
  | exportBackup (now : DateTime)
  | inspect
  | restore
  | confirmStaleRestore (now : DateTime)
  | cancelStaleConfirmation (now : DateTime)
  | restoreParsedBackup (backup : ParsedBackup platform) (allowStale : Bool) (now : DateTime)
  | requestEraseLocalData
  | cancelEraseLocalData
  | confirmEraseLocalData
  | erase
  | coordinatorExport (exportedAtUtc : DateTime)
  | coordinatorInspect
  | coordinatorRestore (allowStale : Bool)
  | coordinatorRestoreBackup (backup : ParsedBackup platform) (allowStale : Bool)
  | coordinatorErase
  | coordinatorEraseLocalData
  | edit (edit : LiveEdit)
  | resume (index : Nat) (conditions : FileConditions δ) (now : DateTime)

namespace BackupSystem

open BackupCoordinator

variable {platform : Platform δ}

/-- A fresh controller over some stores. -/
def create (live : LiveStores) : BackupSystem platform :=
  { live, controller := .create, tasks := [] }

def answer (system : BackupSystem platform) (value : Bool) :
    BackupOutput δ × BackupSystem platform :=
  (some (.ok (.flag value)), system)

def spawn (system : BackupSystem platform) (task : BackupTask δ) :
    BackupOutput δ × BackupSystem platform :=
  (none, { system with tasks := system.tasks ++ [task] })

/-- An operation of the controller up to its `await`. -/
def start (system : BackupSystem platform) (operation : BackupOperation)
    (previousSummary : Option BackupSummary) (task : BackupTask δ) :
    BackupOutput δ × BackupSystem platform :=
  { system with controller := { state := .busy operation previousSummary, isBusy := true } }.spawn
    task

/-- The end of an operation of the controller. -/
def finish (system : BackupSystem platform) (state : BackupFlowState platform) :
    BackupOutput δ × BackupSystem platform :=
  { system with controller := { state, isBusy := false } }.answer true

/-- An operation that one state permits. -/
def throwState (system : BackupSystem platform) (message : String) :
    BackupOutput δ × BackupSystem platform :=
  (some (.error (.thrown (.dart (.stateError message)))), system)

/-- `confirmStaleRestore`: there is no `await` in it. -/
def confirmStaleRestore (system : BackupSystem platform) (now : DateTime) :
    BackupOutput δ × BackupSystem platform :=
  if system.controller.isBusy then system.answer false
  else
    match system.controller.state with
    | .staleConfirmationRequired pendingBackup summary _ _ =>
      let (result, live) := restoreBackup system.live pendingBackup.contents true
      { system with live }.finish (.concluded .restore (some summary) now (summaryOf result))
    | state =>
      system.throwState ("cannot confirm stale restore: current state is " ++ state.runtimeType)

def cancelStaleConfirmation (system : BackupSystem platform) (now : DateTime) :
    BackupOutput δ × BackupSystem platform :=
  match system.controller.state with
  | .staleConfirmationRequired _ summary _ _ =>
    { system with
      controller :=
        { system.controller with state := .success .inspect summary now.toUtc } }.answer true
  | _ => system.answer false

/-- Only a `BackupException` is caught. -/
def restoreParsedBackup (system : BackupSystem platform) (backup : ParsedBackup platform)
    (allowStale : Bool) (now : DateTime) : BackupOutput δ × BackupSystem platform :=
  if system.controller.isBusy then system.answer false
  else if !allowStale &&
      backup.contents.knownRevision < system.live.scheduleStore.knownRevision then
    { system with controller := { system.controller with state := .stale system.live backup } }.answer
      true
  else
    let (result, live) := restoreBackup system.live backup.contents allowStale
    match result with
    | .error (.dart error) => (some (.error (.thrown (.dart error))), { system with live })
    | result =>
      let state := BackupFlowState.concluded .restore system.controller.state.lastSummary now (summaryOf result)
      { system with live, controller := { system.controller with state } }.answer true

def confirmEraseLocalData (system : BackupSystem platform) :
    BackupOutput δ × BackupSystem platform :=
  if system.controller.isBusy then system.answer false
  else
    match system.controller.state with
    | .eraseLocalConfirmationRequired =>
      system.start .eraseLocalData none (.eraseLocalData (.controller none))
    | _ => system.throwState "local data erase requires confirmation"

def requestEraseLocalData (system : BackupSystem platform) :
    BackupOutput δ × BackupSystem platform :=
  if system.controller.isBusy then system.answer false
  else
    { system with
      controller :=
        { system.controller with state := .eraseLocalConfirmationRequired } }.answer true

def cancelEraseLocalData (system : BackupSystem platform) :
    BackupOutput δ × BackupSystem platform :=
  match system.controller.state with
  | .eraseLocalConfirmationRequired =>
    if system.controller.isBusy then system.answer false
    else { system with controller := { system.controller with state := .initial } }.answer true
  | _ => system.answer false

/-- A controller's `load` behind its `await`. -/
def finishLoad (system : BackupSystem platform) (previousSummary : Option BackupSummary)
    (now : DateTime) : Except (FlowError δ) (Option (ParsedBackup platform)) →
      BackupOutput δ × BackupSystem platform
  | .error error => system.finish (.failure .restore error previousSummary)
  | .ok none => system.finish (.absent .restore)
  | .ok (some backup) =>
    if backup.contents.knownRevision < system.live.scheduleStore.knownRevision then
      system.finish (.stale system.live backup)
    else
      let (result, live) := restoreBackup system.live backup.contents false
      { system with live }.finish (.concluded .restore previousSummary now (summaryOf result))

/-- A coordinator's `restore` behind its `await`. -/
def finishRestore (system : BackupSystem platform) (allowStale : Bool) :
    Except (FlowError δ) (Option (ParsedBackup platform)) → BackupOutput δ × BackupSystem platform
  | .error error => (some (.error error), system)
  | .ok none =>
    (some (.error (.thrown (.backup
      { message := .text "no saved backup is available to restore" }))), system)
  | .ok (some backup) =>
    let (result, live) := restoreBackup system.live backup.contents allowStale
    (some ((summaryOf result).map .summary), { system with live })

/-- The result of an operation of the coordinator that returns a summary, at its caller. -/
def report (system : BackupSystem platform) (operation : BackupOperation) (caller : Caller)
    (now : DateTime) (result : Except (FlowError δ) (Option BackupSummary)) :
    BackupOutput δ × BackupSystem platform :=
  match caller with
  | .controller previousSummary => system.finish (.concluded operation previousSummary now result)
  | .direct => (some (result.map .summary), system)

/-- What happens behind the `await` of a task. -/
def afterAwait (system : BackupSystem platform) (conditions : FileConditions δ) (now : DateTime) :
    BackupTask δ → BackupOutput δ × BackupSystem platform
  | .exportBackup caller written =>
    system.report .exportBackup caller now do
      let (summary, _) ← written.mapError FlowError.thrown
      conditions.done
      return some summary
  | .inspect caller =>
    system.report .inspect caller now
      ((conditions.load platform).map (Option.map fun backup => .fromBackup backup.contents))
  | .load previousSummary => system.finishLoad previousSummary now (conditions.load platform)
  | .restore allowStale => system.finishRestore allowStale (conditions.load platform)
  | .erase (.controller _) =>
    system.finish (.concluded .erase none now (conditions.done.map fun _ => none))
  | .erase .direct => (some (conditions.done.map fun _ => .done), system)
  | .eraseLocalData caller =>
    let live := if conditions.failure.isNone then .empty else system.live
    match caller with
    | .controller _ => { system with live }.spawn (.localDataErased conditions.done)
    | .direct => (some (conditions.done.map fun _ => .done), { system with live })
  | .localDataErased result =>
    system.finish <|
      match result with
      | .ok () => .localDataErased
      | .error error => .failure .eraseLocalData error none

def step [Double δ] (system : BackupSystem platform) :
    BackupEvent platform → BackupOutput δ × BackupSystem platform
  | .exportBackup now =>
    if system.controller.isBusy then system.answer false
    else
      let previousSummary := system.controller.state.lastSummary
      system.start .exportBackup previousSummary
        (.exportBackup (.controller previousSummary) (exportBackup platform system.live now))
  | .inspect =>
    if system.controller.isBusy then system.answer false
    else
      let previousSummary := system.controller.state.lastSummary
      system.start .inspect previousSummary (.inspect (.controller previousSummary))
  | .restore =>
    if system.controller.isBusy then system.answer false
    else
      let previousSummary := system.controller.state.lastSummary
      system.start .restore previousSummary (.load previousSummary)
  | .confirmStaleRestore now => system.confirmStaleRestore now
  | .cancelStaleConfirmation now => system.cancelStaleConfirmation now
  | .restoreParsedBackup backup allowStale now => system.restoreParsedBackup backup allowStale now
  | .requestEraseLocalData => system.requestEraseLocalData
  | .cancelEraseLocalData => system.cancelEraseLocalData
  | .confirmEraseLocalData => system.confirmEraseLocalData
  | .erase =>
    if system.controller.isBusy then system.answer false
    else system.start .erase none (.erase (.controller none))
  | .coordinatorExport exportedAtUtc =>
    system.spawn (.exportBackup .direct (exportBackup platform system.live exportedAtUtc))
  | .coordinatorInspect => system.spawn (.inspect .direct)
  | .coordinatorRestore allowStale => system.spawn (.restore allowStale)
  | .coordinatorRestoreBackup backup allowStale =>
    let (result, live) := restoreBackup system.live backup.contents allowStale
    (some ((summaryOf result).map .summary), { system with live })
  | .coordinatorErase => system.spawn (.erase .direct)
  | .coordinatorEraseLocalData => system.spawn (.eraseLocalData .direct)
  | .edit edit =>
    match system.live.edit edit with
    | .ok live => (some (.ok .done), { system with live })
    | .error error => (some (.error (.thrown (.dart error))), system)
  | .resume index conditions now =>
    match system.tasks[index]? with
    | some task => { system with tasks := system.tasks.eraseIdx index }.afterAwait conditions now task
    | none => (none, system)

end BackupSystem

end DawnDock.App
