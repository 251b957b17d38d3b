import DawnDock.App.ExchangeSafety
import DawnDock.App.ScheduleFlow

/-!
The review flow over any run of calls (`flow_safe`).

`Corresponds` relates the controller to its exchange and to the history: phase by phase it
says where the exchange stands, and which diff was reviewed, previewed, given a token and
applied. Under it the throwing guards of the exchange are not reached, so no error
escapes; `step_sound` says that every call keeps it.
-/

namespace DawnDock.App

open ScheduleExchange (Carries Adopts tokenOf bodyOf asEntries digest_isSome allFinite_wire)

variable {δ : Type} [Double δ]

/-! ### The exchange without its guards -/

section Guards

theorem answered_of_finite {payload : Entries δ} {window : Option (Finset DartString)}
    (finite : AllFinite (.object payload)) :
    ∃ code after, validateContractMessage payload window = some (code, after) := by
  obtain ⟨code, after, answered, -⟩ := @answers_of_size δ _ payload window
    ((serializedEnvelopeBytes_isSome payload).mpr (.inr finite))
  exact ⟨code, after, answered⟩

/-- The error is one that the flow answers with a code. -/
def IsReject (error : DartError) : Prop := ∃ code detail, error = .exchangeReject code detail

theorem buildEnvelope_cases (type messageId : DartString) (sentAt : DateTime) (revision : Int64)
    {body : Entries δ} (finite : AllFinite (.object body)) :
    (∃ error, buildEnvelope type messageId sentAt revision body = .error error ∧ IsReject error) ∨
      ∃ envelope, buildEnvelope type messageId sentAt revision body = .ok envelope := by
  unfold buildEnvelope
  split
  · exact .inl ⟨_, rfl, _, _, rfl⟩
  cases formatted : formatSentAt sentAt with
  | error error =>
      unfold formatSentAt at formatted
      dsimp only at formatted
      split at formatted
      · cases formatted
        exact .inl ⟨_, rfl, _, _, rfl⟩
      · cases formatted
  | ok text =>
      have whole : AllFinite (.object (envelopeEntries type messageId text revision body)) := by
        rw [allFinite_object, envelopeEntries]
        simp only [List.forall_mem_cons]
        refine ⟨?_, ?_, ?_, ?_, ?_, finite, List.forall_mem_nil _⟩
        all_goals
          rw [AllFinite, Json.values, List.forall_mem_singleton]
          trivial
      obtain ⟨code, after, answered⟩ := @answered_of_finite δ _ _ none whole
      dsimp only [Bind.bind, Except.bind]
      rw [answered]
      dsimp only
      split
      · exact .inl ⟨_, rfl, _, _, rfl⟩
      · exact .inr ⟨_, rfl⟩

theorem allFinite_alarms (diff : ScheduleDiff) :
    AllFinite (.array diff.toWirePreviewBody : Value δ) := by
  rw [allFinite_array]
  intro element mem
  obtain ⟨draft, -, rfl⟩ := List.mem_map.mp mem
  exact allFinite_wire draft

theorem allFinite_applyBody (token : Option DartString) (diff : ScheduleDiff) :
    AllFinite (.object (applyBody token diff.toWirePreviewBody) : Value δ) := by
  unfold applyBody
  rw [allFinite_object]
  simp only [List.forall_mem_cons]
  refine ⟨?_, allFinite_alarms diff, List.forall_mem_nil _⟩
  cases token with
  | none =>
      rw [AllFinite, Json.values, List.forall_mem_singleton]
      trivial
  | some token =>
      rw [AllFinite, Json.values, List.forall_mem_singleton]
      trivial

/-- The exchange that a preview is framed with. -/
def armedExchange (diff : ScheduleDiff) (bound : DartString) : ScheduleExchange :=
  { ScheduleExchange.create with armed := some diff, boundDigest := some bound }

theorem beginFresh_ok {store : DeviceScheduleStore} {diff : ScheduleDiff}
    (current : store.knownRevision = diff.expectedRevision) :
    ∃ bound, digest (diff.toWirePreviewBody : List (Value δ)) = some bound ∧
      ScheduleFlowController.beginFresh δ store diff = .ok (armedExchange diff bound) := by
  obtain ⟨bound, found⟩ := @digest_isSome δ _ diff
  refine ⟨bound, found, ?_⟩
  rw [ScheduleFlowController.beginFresh, ScheduleExchange.beginPreview, if_neg (by exact not_not.mpr rfl),
    if_neg (by exact Bool.false_ne_true), if_neg (not_not.mpr current.symm), found]
  rfl

omit [Double δ] in
theorem type_envelope {type messageId text : DartString} {revision : Int64} {body : Entries δ} :
    index (envelopeEntries type messageId text revision body) (utf16 "type") = .string type := rfl

theorem buildPreview_armed {exchange : ScheduleExchange} {diff : ScheduleDiff}
    (armed : exchange.armed = some diff) (idle : exchange.phase = .idle) (messageId : DartString)
    (sentAt : DateTime) :
    (∃ code detail, exchange.buildPreview messageId sentAt =
      ((.error (.exchangeReject code detail), exchange) :
        Except DartError (Entries δ) × ScheduleExchange)) ∨
      ∃ envelope, exchange.buildPreview messageId sentAt =
          ((.ok envelope, { exchange with phase := .previewSent }) :
            Except DartError (Entries δ) × ScheduleExchange) ∧ Carries diff envelope ∧
        index envelope (utf16 "type") = .string (utf16 "schedule.preview") := by
  have finite : AllFinite (.object [(utf16 "alarms", .array diff.toWirePreviewBody)] : Value δ) := by
    rw [allFinite_object, List.forall_mem_singleton]
    exact allFinite_alarms diff
  have built := buildEnvelope_cases (utf16 "schedule.preview") messageId sentAt
    diff.expectedRevision finite
  rw [ScheduleExchange.buildPreview, armed]
  dsimp only
  rw [if_neg (not_not.mpr idle)]
  obtain ⟨_, failed, code, detail, rfl⟩ | ⟨envelope, built⟩ := built
  · rw [failed]
    exact .inl ⟨code, detail, rfl⟩
  · obtain ⟨text, rfl⟩ := ScheduleExchange.buildEnvelope_ok built
    rw [built]
    exact .inr ⟨_, rfl, ScheduleExchange.carries_envelope diff rfl, type_envelope⟩

theorem buildApply_ready {exchange : ScheduleExchange} {store : DeviceScheduleStore}
    {diff : ScheduleDiff} {token : DartString} (armed : exchange.armed = some diff)
    (ready : exchange.phase = .readyToApply)
    (current : store.knownRevision = diff.expectedRevision)
    (bound : exchange.boundDigest = digest (diff.toWirePreviewBody : List (Value δ)))
    (received : exchange.boundToken = some token) (messageId : DartString) (sentAt : DateTime) :
    (∃ code detail, exchange.buildApply store messageId sentAt =
      ((.error (.exchangeReject code detail), exchange) :
        Except DartError (Entries δ) × ScheduleExchange)) ∨
      ∃ envelope, exchange.buildApply store messageId sentAt =
          ((.ok envelope, { exchange with phase := .applySent }) :
            Except DartError (Entries δ) × ScheduleExchange) ∧ Carries diff envelope ∧
        tokenOf envelope = .string token := by
  have built := buildEnvelope_cases (utf16 "schedule.apply") messageId sentAt
    diff.expectedRevision (@allFinite_applyBody δ _ exchange.boundToken diff)
  rw [ScheduleExchange.buildApply, armed]
  dsimp only
  rw [if_neg (not_not.mpr ready), if_neg (not_not.mpr current), if_neg (not_not.mpr bound.symm)]
  obtain ⟨_, failed, code, detail, rfl⟩ | ⟨envelope, built⟩ := built
  · rw [failed]
    exact .inl ⟨code, detail, rfl⟩
  · obtain ⟨text, rfl⟩ := ScheduleExchange.buildEnvelope_ok built
    rw [built]
    refine .inr ⟨_, rfl, ScheduleExchange.carries_envelope diff rfl, ?_⟩
    rw [received]
    rfl

theorem receiveApplyToken_sent {exchange : ScheduleExchange} (sent : exchange.phase = .previewSent)
    (token : DartString) :
    exchange.receiveApplyToken token =
        (.error (.argumentValue "token" "apply token shape invalid"), exchange) ∨
      exchange.receiveApplyToken token =
        (.ok (), { exchange with boundToken := some token, phase := .readyToApply }) := by
  rw [ScheduleExchange.receiveApplyToken, if_neg (not_not.mpr sent)]
  split
  · exact .inl rfl
  · exact .inr rfl

/-- What an ingest does while the apply for the proposal is outstanding. -/
inductive Ingests (diff : ScheduleDiff) (payload : Entries δ) (exchange : ScheduleExchange)
    (store : DeviceScheduleStore) :
    IngestResult → ScheduleExchange → DeviceScheduleStore → Prop where
  | kept {seen : Finset DartString} {disposition : IngestDisposition} {code : Option DartString} :
      disposition = .invalid ∨ disposition = .rejected →
      Ingests diff payload exchange store { disposition, code, currentRevision := none }
        { exchange with seenInboundMessageIds := seen } store
  | applied {seen : Finset DartString} {after : DeviceScheduleStore} :
      Adopts diff payload store after →
      Ingests diff payload exchange store
        { disposition := .applied, code := none, currentRevision := none }
        { exchange.disarm with seenInboundMessageIds := seen, phase := .applied } after
  | conflict {seen : Finset DartString} {code : DartString} {revision : Option Int64} :
      Ingests diff payload exchange store
        { disposition := .conflict, code := some code, currentRevision := revision }
        { exchange.disarm with
          seenInboundMessageIds := seen, conflictRevision := revision, phase := .needsRefresh } store
  | refused {seen : Finset DartString} {code : DartString} :
      Ingests diff payload exchange store
        { disposition := .rejected, code := some code, currentRevision := none }
        { exchange.disarm with
          seenInboundMessageIds := seen, conflictRevision := none, phase := .idle } store

section Ingest

variable {payload : Entries δ} {exchange : ScheduleExchange} {store : DeviceScheduleStore}
  {diff : ScheduleDiff} {seen : Finset DartString}

omit [Double δ] in
theorem asString_of_hasType {name : String}
    (typed : ScheduleFlowController.hasType payload name = true) :
    asString (index payload (utf16 "type")) = utf16 name := by
  obtain ⟨text, found, same⟩ := index_of_isString typed
  rw [found, asString, beq_iff_eq.mp same]

omit [Double δ] in
theorem validateBody_error {body : Value δ}
    (valid : validateBody (utf16 "error.response") body = .accepted) :
    validateErrorResponseBody (asEntries body) = .accepted := by
  cases body with
  | object entries =>
      have other : kRevisionRequiredTypes.contains (utf16 "error.response") = false := by
        decide +kernel
      rw [validateBody, other, beq_self_eq_true] at valid
      exact valid
  | _ => cases valid

omit [Double δ] in
theorem ingestReceipt_armed (armed : exchange.armed = some diff)
    (current : store.knownRevision = diff.expectedRevision)
    (checks : ProposalChecks diff.proposedOrder) (now : DateTime)
    (type : asString (index payload (utf16 "type")) = utf16 "event.syncReceipt")
    (valid : validateSyncReceiptBody (bodyOf payload) = .accepted) :
    ∃ result exchange' store',
      ScheduleExchange.ingestReceipt { exchange with seenInboundMessageIds := seen } store
        (bodyOf payload) now = (.ok result, exchange', store') ∧
      Ingests diff payload exchange store result exchange' store' := by
  obtain ⟨receipt, read, revision, count, nonneg⟩ := readReceipt_ok valid
  unfold ScheduleExchange.ingestReceipt
  dsimp only
  split
  · rename_i unarmed
    rw [armed] at unarmed
    cases unarmed
  rename_i found same
  rw [armed] at same
  cases same
  rw [read]
  dsimp only
  by_cases fits : receipt.appliedRevision ≠ diff.expectedRevision + 1 ∨
      receipt.alarmCount.toInt ≠ diff.proposedOrder.length
  · rw [if_pos fits]
    exact ⟨_, _, _, rfl, .kept (.inr rfl)⟩
  rw [if_neg fits]
  rw [not_or, not_not, not_not] at fits
  have next := toInt_succ fits.1 nonneg
  have later : store.knownRevision < receipt.appliedRevision := by
    rw [Int64.lt_iff_toInt_lt, next, current]
    exact Int.lt_succ _
  obtain ⟨after, recorded⟩ := @recordApplied_ok diff.proposedOrder store
    receipt.appliedRevision receipt.nextAlarmUtc now checks later
  obtain ⟨-, -, committed, known⟩ := of_recordApplied recorded
  rw [recorded]
  refine ⟨_, _, _, rfl, .applied ?_⟩
  exact {
    type := type
    revision := ⟨_, revision, next, known⟩
    count := ⟨_, count, fits.2⟩
    advances := by rwa [known]
    committed := committed }

omit [Double δ] in
theorem ingestError_armed (valid : validateErrorResponseBody (bodyOf payload) = .accepted) :
    ∃ result exchange' store',
      ScheduleExchange.ingestError { exchange with seenInboundMessageIds := seen } store
        (bodyOf payload) = (.ok result, exchange', store') ∧
      Ingests diff payload exchange store result exchange' store' := by
  obtain ⟨currentRevision, read⟩ := error_of_valid valid
  rw [ScheduleExchange.ingestError]
  dsimp only
  rw [read]
  dsimp only
  split
  · exact ⟨_, _, _, rfl, .conflict⟩
  · exact ⟨_, _, _, rfl, .refused⟩

theorem ingest_sent (armed : exchange.armed = some diff) (sent : exchange.phase = .applySent)
    (current : store.knownRevision = diff.expectedRevision)
    (checks : ProposalChecks diff.proposedOrder) (finite : AllFinite (.object payload))
    (now : DateTime)
    (response : ScheduleFlowController.hasType payload "event.syncReceipt" = true ∨
      ScheduleFlowController.hasType payload "error.response" = true) :
    ∃ result exchange' store', exchange.ingest store payload now = (.ok result, exchange', store') ∧
      Ingests diff payload exchange store result exchange' store' := by
  obtain ⟨code, after, answered⟩ :=
    @answered_of_finite δ _ payload (some exchange.seenInboundMessageIds) finite
  rw [ScheduleExchange.ingest, if_neg (not_not.mpr sent), answered]
  dsimp only
  by_cases accepted : code = .accepted
  · rw [if_neg (not_not.mpr accepted)]
    rw [accepted] at answered
    have valid := validateBody_of_accepted answered
    have differ : utf16 "error.response" ≠ utf16 "event.syncReceipt" := by
      decide +kernel
    obtain receipt | error := response
    · have type := asString_of_hasType receipt
      rw [type] at valid
      rw [if_pos type]
      exact ingestReceipt_armed armed current checks now type
        (ScheduleExchange.validateBody_receipt valid)
    · have type := asString_of_hasType error
      rw [type] at valid
      rw [type, if_neg differ, if_pos rfl]
      exact ingestError_armed (validateBody_error valid)
  · rw [if_pos accepted]
    exact ⟨_, _, _, rfl, .kept (.inl rfl)⟩

end Ingest

end Guards

namespace ScheduleFlowController

/-! ### Runs -/

/-- The controller and the store it was made for. -/
structure World where
  controller : ScheduleFlowController
  store : DeviceScheduleStore

/-- A call, or a replacement of the store by someone else. -/
inductive Call (δ : Type) where
  | review (proposal : List AlarmDraft)
  | requestPreview (messageId : DartString) (sentAt : DateTime)
  | receiveToken (token : DartString)
  | confirmApply (messageId : DartString) (sentAt : DateTime)
  | receive (payload : Entries δ) (now : DateTime)
  | acknowledgeRefresh
  | cancel
  | replaceStore (store : DeviceScheduleStore)

inductive Outcome (δ : Type) where
  | answered (flag : Bool)
  | framed (request : Option (Entries δ))
  | received (result : Option IngestResult)
  | replaced
  | threw (error : DartError)

def outcomeOf {α : Type} (returned : α → Outcome δ) : Except DartError α → Outcome δ
  | .ok value => returned value
  | .error error => .threw error

def step (world : World) (call : Call δ) : Outcome δ × World :=
  match call with
  | .review proposal =>
    let (result, controller) := world.controller.review world.store proposal
    (outcomeOf .answered result, { world with controller })
  | .requestPreview messageId sentAt =>
    let (result, controller) := world.controller.requestPreview world.store messageId sentAt
    (outcomeOf .framed result, { world with controller })
  | .receiveToken token =>
    let (result, controller) := world.controller.receiveToken token
    (outcomeOf .answered result, { world with controller })
  | .confirmApply messageId sentAt =>
    let (result, controller) := world.controller.confirmApply world.store messageId sentAt
    (outcomeOf .framed result, { world with controller })
  | .receive payload now =>
    let (result, controller, store) := world.controller.receive world.store payload now
    (outcomeOf .received result, { controller, store })
  | .acknowledgeRefresh =>
    let (result, controller) := world.controller.acknowledgeRefresh world.store
    (outcomeOf .answered result, { world with controller })
  | .cancel =>
    let (result, controller) := world.controller.cancel
    (outcomeOf .answered result, { world with controller })
  | .replaceStore store => (.replaced, { world with store })

structure Event (δ : Type) where
  before : World
  call : Call δ
  outcome : Outcome δ
  after : World

def eventOf (world : World) (call : Call δ) : Event δ :=
  { before := world, call, outcome := (step world call).1, after := (step world call).2 }

/-- The events of a run in turn. -/
def trace : World → List (Call δ) → List (Event δ)
  | _, [] => []
  | world, call :: rest => eventOf world call :: trace (eventOf world call).after rest

theorem eventOf_eq {world after : World} {call : Call δ} {outcome : Outcome δ}
    (stepped : step world call = (outcome, after)) :
    eventOf world call = { before := world, call, outcome, after } := by
  rw [eventOf, stepped]

/-! ### Stages -/

/-- An event after which the diff is still the last one reviewed, and at the same stage. -/
structure Quiet (diff : ScheduleDiff) (event : Event δ) : Prop where
  review : ∀ proposal, event.call = .review proposal → event.outcome ≠ .answered true
  token : ∀ token, event.call = .receiveToken token → event.outcome ≠ .answered true
  framed : ∀ request, event.outcome ≠ .framed (some request)
  diff : event.before.controller.state.diff = some diff ∧
    event.after.controller.state.diff = some diff

/-- The diff was reviewed. -/
def Reviews (diff : ScheduleDiff) (event : Event δ) : Prop :=
  ∃ proposal, event.call = .review proposal ∧ event.outcome = .answered true ∧
    diffSchedule event.before.store.committed proposal event.before.store.knownRevision = .ok diff

/-- A preview was framed from it. -/
def Previews (diff : ScheduleDiff) (event : Event δ) : Prop :=
  ∃ messageId sentAt envelope, event.call = .requestPreview messageId sentAt ∧
    event.outcome = .framed (some envelope) ∧ Carries diff envelope

/-- The token was received. -/
def Receives (token : DartString) (event : Event δ) : Prop :=
  event.call = .receiveToken token ∧ event.outcome = .answered true

/-- An apply was returned for it, with the token. -/
def Applies (diff : ScheduleDiff) (token : DartString) (event : Event δ) : Prop :=
  ∃ messageId sentAt envelope, event.call = .confirmApply messageId sentAt ∧
    event.outcome = .framed (some envelope) ∧ Carries diff envelope ∧
    tokenOf envelope = .string token

def Reviewed (diff : ScheduleDiff) : List (Event δ) → Prop := Staged (Quiet diff) [Reviews diff]

def Previewed (diff : ScheduleDiff) : List (Event δ) → Prop :=
  Staged (Quiet diff) [Previews diff, Reviews diff]

def Tokened (diff : ScheduleDiff) (token : DartString) : List (Event δ) → Prop :=
  Staged (Quiet diff) [Receives token, Previews diff, Reviews diff]

def Outstanding (diff : ScheduleDiff) (token : DartString) : List (Event δ) → Prop :=
  Staged (Quiet diff) [Applies diff token, Receives token, Previews diff, Reviews diff]

/-- The phase of the exchange under a phase of the flow. -/
def exchangePhase : ScheduleFlowPhase → ExchangePhase
  | .idle | .review | .refused => .idle
  | .previewPending => .previewSent
  | .confirmationRequired => .readyToApply
  | .applyPending => .applySent
  | .needsRefresh => .needsRefresh
  | .applied => .applied

/-- The controller shows the diff that the exchange is armed with. -/
structure Shows (controller : ScheduleFlowController) (diff : ScheduleDiff) (δ : Type) [Double δ] :
    Prop where
  shown : controller.state.diff = some diff
  armed : controller.exchange.armed = some diff
  bound : controller.exchange.boundDigest = digest (diff.toWirePreviewBody : List (Value δ))
  checks : ProposalChecks diff.proposedOrder

/-- What the history and the exchange say of the phase that the controller is in. -/
def Stage (history : List (Event δ)) (controller : ScheduleFlowController) :
    ScheduleFlowPhase → Prop
  | .review => ∃ diff, controller.state.diff = some diff ∧ ProposalChecks diff.proposedOrder ∧
      Reviewed diff history
  | .previewPending => ∃ diff, Shows controller diff δ ∧ Previewed diff history
  | .confirmationRequired => ∃ diff token, Shows controller diff δ ∧
      controller.exchange.boundToken = some token ∧ Tokened diff token history
  | .applyPending => ∃ diff token, Shows controller diff δ ∧ Outstanding diff token history
  | .needsRefresh => controller.state.conflictRevision = controller.exchange.conflictRevision
  | .idle | .refused | .applied => True

/-- The flow and the exchange are in corresponding phases, for reasons in the history. -/
structure Corresponds (history : List (Event δ)) (controller : ScheduleFlowController) : Prop where
  phase : controller.exchange.phase = exchangePhase controller.state.phase
  stage : Stage history controller controller.state.phase

/-! ### One call -/

/-- What is claimed of an event after a history. -/
structure Sound (history : List (Event δ)) (event : Event δ) : Prop where
  corresponds : Corresponds (history ++ [event]) event.after.controller
  silent : ∀ error, event.outcome ≠ .threw error
  apply : ∀ envelope, event.outcome = .framed (some envelope) →
    index envelope (utf16 "type") = .string (utf16 "schedule.apply") →
      (∃ messageId sentAt, event.call = .confirmApply messageId sentAt) ∧
      ∃ diff token, Tokened diff token history ∧ Carries diff envelope ∧
        tokenOf envelope = .string token
  store : event.after.store ≠ event.before.store →
    (∃ outside, event.call = .replaceStore outside) ∨
      ∃ diff token payload now, Outstanding diff token history ∧
        event.call = .receive payload now ∧
        event.before.store.knownRevision = diff.expectedRevision ∧
        Adopts diff payload event.before.store event.after.store

section Step

variable {history : List (Event δ)} {world : World} {controller : ScheduleFlowController}

/-- The exchange, up to its replay set, and what the state shows, up to its code. -/
structure Keeps (before after : ScheduleFlowController) : Prop where
  phase : after.exchange.phase = before.exchange.phase
  armed : after.exchange.armed = before.exchange.armed
  boundToken : after.exchange.boundToken = before.exchange.boundToken
  boundDigest : after.exchange.boundDigest = before.exchange.boundDigest
  flowPhase : after.state.phase = before.state.phase
  diff : after.state.diff = before.state.diff
  conflict : before.state.phase = .needsRefresh →
    after.exchange.conflictRevision = before.exchange.conflictRevision ∧
      after.state.conflictRevision = before.state.conflictRevision

/-- An event that reviews, receives and frames nothing. -/
structure Plain (event : Event δ) : Prop where
  review : ∀ proposal, event.call = .review proposal → event.outcome ≠ .answered true
  token : ∀ token, event.call = .receiveToken token → event.outcome ≠ .answered true
  framed : ∀ request, event.outcome ≠ .framed (some request)

theorem Shows.keep {before after : ScheduleFlowController} {diff : ScheduleDiff}
    (shows : Shows before diff δ) (keeps : Keeps before after) : Shows after diff δ :=
  ⟨keeps.diff.trans shows.shown, keeps.armed.trans shows.armed,
    keeps.boundDigest.trans shows.bound, shows.checks⟩

theorem corresponds_keep {event : Event δ}
    (corresponds : Corresponds history event.before.controller) (plain : Plain event)
    (keeps : Keeps event.before.controller event.after.controller) :
    Corresponds (history ++ [event]) event.after.controller := by
  have quiet {diff : ScheduleDiff} (shown : event.before.controller.state.diff = some diff) :
      Quiet diff event :=
    ⟨plain.review, plain.token, plain.framed, shown, keeps.diff.trans shown⟩
  constructor
  · rw [keeps.phase, keeps.flowPhase]
    exact corresponds.phase
  · have stage := corresponds.stage
    rw [keeps.flowPhase]
    cases phase : event.before.controller.state.phase with
    | review =>
        rw [phase] at stage
        obtain ⟨diff, shown, checks, reviewed⟩ := stage
        exact ⟨diff, keeps.diff.trans shown, checks, Staged.concat reviewed (quiet shown)⟩
    | previewPending =>
        rw [phase] at stage
        obtain ⟨diff, shows, previewed⟩ := stage
        exact ⟨diff, shows.keep keeps, Staged.concat previewed (quiet shows.shown)⟩
    | confirmationRequired =>
        rw [phase] at stage
        obtain ⟨diff, token, shows, bound, tokened⟩ := stage
        exact ⟨diff, token, shows.keep keeps, keeps.boundToken.trans bound,
          Staged.concat tokened (quiet shows.shown)⟩
    | applyPending =>
        rw [phase] at stage
        obtain ⟨diff, token, shows, outstanding⟩ := stage
        exact ⟨diff, token, shows.keep keeps, Staged.concat outstanding (quiet shows.shown)⟩
    | needsRefresh =>
        rw [phase] at stage
        obtain ⟨exchange, state⟩ := keeps.conflict phase
        exact state.trans (stage.trans exchange.symm)
    | _ => trivial

/-- The outcomes that open a stage, or an error. -/
def Outcome.isLoud : Outcome δ → Bool
  | .answered flag => flag
  | .framed request => request.isSome
  | .threw _ => true
  | .received _ | .replaced => false

omit [Double δ] in
theorem plain_of_quiet {event : Event δ} (quiet : event.outcome.isLoud = false) : Plain event := by
  constructor
  · intro _ _ outcome
    rw [outcome] at quiet
    cases quiet
  · intro _ _ outcome
    rw [outcome] at quiet
    cases quiet
  · intro _ outcome
    rw [outcome] at quiet
    cases quiet

theorem sound_quiet {event : Event δ} (quiet : event.outcome.isLoud = false)
    (store : event.after.store = event.before.store)
    (corresponds : Corresponds (history ++ [event]) event.after.controller) :
    Sound history event := by
  constructor
  · exact corresponds
  · intro _ outcome
    rw [outcome] at quiet
    cases quiet
  · intro _ outcome
    rw [outcome] at quiet
    cases quiet
  · intro changed
    exact absurd store changed

theorem sound_keep {event : Event δ} (corresponds : Corresponds history event.before.controller)
    (quiet : event.outcome.isLoud = false) (store : event.after.store = event.before.store)
    (keeps : Keeps event.before.controller event.after.controller) : Sound history event :=
  sound_quiet quiet store (corresponds_keep corresponds (plain_of_quiet quiet) keeps)

theorem Keeps.refl (controller : ScheduleFlowController) : Keeps controller controller :=
  ⟨rfl, rfl, rfl, rfl, rfl, rfl, fun _ => ⟨rfl, rfl⟩⟩

/-- A call that returns without doing anything. -/
theorem sound_declined {call : Call δ} {outcome : Outcome δ}
    (corresponds : Corresponds history world.controller)
    (stepped : step world call = (outcome, world)) (quiet : outcome.isLoud = false) :
    Sound history (eventOf world call) := by
  rw [eventOf_eq stepped]
  exact sound_keep corresponds quiet rfl (.refl _)

theorem sound_review (corresponds : Corresponds history world.controller)
    (proposal : List AlarmDraft) : Sound history (eventOf world (.review proposal)) := by
  by_cases closed : (!reviewable.contains world.controller.state.phase) = true
  · have stepped : step world (.review proposal : Call δ) = (.answered false, world) := by
      rw [step, review, if_pos closed]
      rfl
    exact sound_declined corresponds stepped rfl
  obtain ⟨message, refused⟩ | ⟨diff, made⟩ :=
    diffSchedule_cases world.store.committed proposal world.store.knownRevision
  · have stepped : step world (.review proposal : Call δ) = (.answered false, { world with
        controller := {
          exchange := .create
          state := .plain .refused (some (utf16 "invalid_proposal")) } }) := by
      rw [step, review, if_neg closed, refused]
      rfl
    rw [eventOf_eq stepped]
    apply sound_quiet rfl rfl
    exact ⟨rfl, trivial⟩
  · have stepped : step world (.review proposal : Call δ) = (.answered true, { world with
        controller := {
          exchange := .create
          state := {
            phase := .review, diff := some diff, code := none, conflictRevision := none } } }) := by
      rw [step, review, if_neg closed, made]
      rfl
    rw [eventOf_eq stepped]
    constructor
    · constructor
      · rfl
      · refine ⟨diff, rfl, (of_diffSchedule made).proposedOrder_checks, ?_⟩
        exact Staged.next .start ⟨proposal, rfl, rfl, made⟩
    · intro error threw
      cases threw
    · intro envelope framed
      cases framed
    · intro changed
      exact absurd rfl changed

theorem sound_requestPreview (corresponds : Corresponds history world.controller)
    (messageId : DartString) (sentAt : DateTime) :
    Sound history (eventOf world (.requestPreview messageId sentAt)) := by
  by_cases reviewing : world.controller.state.phase = .review
  case neg =>
    have stepped : step world (.requestPreview messageId sentAt : Call δ) =
        (.framed none, world) := by
      rw [step, requestPreview, ScheduleFlowState.canPreview, decide_eq_false reviewing]
      rfl
    exact sound_declined corresponds stepped rfl
  have stage := corresponds.stage
  rw [reviewing] at stage
  obtain ⟨diff, shown, checks, reviewed⟩ := stage
  have can : world.controller.state.canPreview = true := decide_eq_true reviewing
  by_cases moved : world.store.knownRevision ≠ diff.expectedRevision
  · have stepped : step world (.requestPreview messageId sentAt : Call δ) = (.framed none,
        { world with controller := { world.controller with
          state := .plain .refused (some (utf16 "mirror_changed")) } }) := by
      rw [step, requestPreview, can, shown]
      dsimp only
      rw [if_pos moved]
      rfl
    rw [eventOf_eq stepped]
    apply sound_quiet rfl rfl
    constructor
    · have phase := corresponds.phase
      rw [reviewing] at phase
      exact phase
    · trivial
  obtain ⟨bound, found, begun⟩ := @beginFresh_ok δ _ world.store diff (not_not.mp moved)
  obtain ⟨code, detail, refused⟩ | ⟨envelope, built, carries, type⟩ :=
    @buildPreview_armed δ _ (armedExchange diff bound) diff rfl rfl messageId sentAt
  · have stepped : step world (.requestPreview messageId sentAt : Call δ) = (.framed none,
        ⟨move { world.controller with exchange := armedExchange diff bound } .review
          (some (utf16 code)), world.store⟩) := by
      rw [step, requestPreview, can, shown]
      dsimp only
      rw [if_neg moved, begun]
      dsimp only
      rw [refused]
      rfl
    rw [eventOf_eq stepped]
    apply sound_quiet rfl rfl
    constructor
    · rfl
    · exact ⟨diff, shown, checks, Staged.concat reviewed ⟨nofun, nofun, nofun, shown, shown⟩⟩
  · have stepped : step world (.requestPreview messageId sentAt : Call δ) =
        (.framed (some envelope), ⟨move { world.controller with
            exchange := { armedExchange diff bound with phase := .previewSent } }
          .previewPending none, world.store⟩) := by
      rw [step, requestPreview, can, shown]
      dsimp only
      rw [if_neg moved, begun]
      dsimp only
      rw [built]
      rfl
    rw [eventOf_eq stepped]
    constructor
    · constructor
      · rfl
      · refine ⟨diff, ⟨shown, rfl, found.symm, checks⟩, ?_⟩
        exact Staged.next reviewed ⟨messageId, sentAt, envelope, rfl, rfl, carries⟩
    · intro error threw
      cases threw
    · rintro _ ⟨⟩ apply
      rw [type] at apply
      exact absurd (Json.string.inj apply) (by decide +kernel)
    · intro changed
      exact absurd rfl changed

theorem sound_receiveToken (corresponds : Corresponds history world.controller)
    (token : DartString) : Sound history (eventOf world (.receiveToken token)) := by
  by_cases pending : world.controller.state.phase = .previewPending
  case neg =>
    have stepped : step world (.receiveToken token : Call δ) = (.answered false, world) := by
      rw [step, receiveToken, if_pos pending]
      rfl
    exact sound_declined corresponds stepped rfl
  have phase := corresponds.phase
  have stage := corresponds.stage
  rw [pending] at phase stage
  obtain ⟨diff, shows, previewed⟩ := stage
  obtain refused | received := receiveApplyToken_sent phase token
  · have stepped : step world (.receiveToken token : Call δ) = (.answered false,
        ⟨world.controller.move .previewPending (some (utf16 "invalid_apply_token")),
          world.store⟩) := by
      rw [step, receiveToken, if_neg (not_not.mpr pending), refused]
      rfl
    rw [eventOf_eq stepped]
    apply sound_keep corresponds rfl rfl
    refine ⟨rfl, rfl, rfl, rfl, pending.symm, rfl, ?_⟩
    intro refresh
    rw [pending] at refresh
    cases refresh
  · have stepped : step world (.receiveToken token : Call δ) = (.answered true,
        ⟨move { world.controller with
            exchange := { world.controller.exchange with
              boundToken := some token, phase := .readyToApply } }
          .confirmationRequired none, world.store⟩) := by
      rw [step, receiveToken, if_neg (not_not.mpr pending), received]
      rfl
    rw [eventOf_eq stepped]
    constructor
    · constructor
      · rfl
      · refine ⟨diff, token, ⟨shows.shown, shows.armed, shows.bound, shows.checks⟩, rfl, ?_⟩
        exact Staged.next previewed ⟨rfl, rfl⟩
    · intro error threw
      cases threw
    · intro envelope framed
      cases framed
    · intro changed
      exact absurd rfl changed

theorem sound_confirmApply (corresponds : Corresponds history world.controller)
    (messageId : DartString) (sentAt : DateTime) :
    Sound history (eventOf world (.confirmApply messageId sentAt)) := by
  by_cases required : world.controller.state.phase = .confirmationRequired
  case neg =>
    have stepped : step world (.confirmApply messageId sentAt : Call δ) = (.framed none, world) := by
      rw [step, confirmApply, ScheduleFlowState.canConfirm, decide_eq_false required]
      rfl
    exact sound_declined corresponds stepped rfl
  have phase := corresponds.phase
  have stage := corresponds.stage
  rw [required] at phase stage
  obtain ⟨diff, token, shows, bound, tokened⟩ := stage
  have can : world.controller.state.canConfirm = true := decide_eq_true required
  by_cases moved : world.store.knownRevision ≠ diff.expectedRevision
  · have aborted : world.controller.exchange.abort = (.ok (),
        { world.controller.exchange.disarm with conflictRevision := none, phase := .idle }) := by
      rw [ScheduleExchange.abort, phase, if_neg (by decide)]
    have stepped : step world (.confirmApply messageId sentAt : Call δ) = (.framed none,
        ⟨{ exchange := { world.controller.exchange.disarm with
              conflictRevision := none, phase := .idle }
           state := .plain .refused (some (utf16 "mirror_changed")) }, world.store⟩) := by
      rw [step, confirmApply, can, shows.shown]
      dsimp only
      rw [if_pos moved, aborted]
      rfl
    rw [eventOf_eq stepped]
    apply sound_quiet rfl rfl
    exact ⟨rfl, trivial⟩
  obtain ⟨code, detail, refused⟩ | ⟨envelope, built, carries, carried⟩ :=
    @buildApply_ready δ _ world.controller.exchange world.store diff token shows.armed phase
      (not_not.mp moved) shows.bound bound messageId sentAt
  · have stepped : step world (.confirmApply messageId sentAt : Call δ) = (.framed none,
        ⟨world.controller.move .confirmationRequired (some (utf16 code)), world.store⟩) := by
      rw [step, confirmApply, can, shows.shown]
      dsimp only
      rw [if_neg moved, refused]
      rfl
    rw [eventOf_eq stepped]
    apply sound_keep corresponds rfl rfl
    refine ⟨rfl, rfl, rfl, rfl, required.symm, rfl, ?_⟩
    intro refresh
    rw [required] at refresh
    cases refresh
  · have stepped : step world (.confirmApply messageId sentAt : Call δ) =
        (.framed (some envelope), ⟨move { world.controller with
            exchange := { world.controller.exchange with phase := .applySent } }
          .applyPending none, world.store⟩) := by
      rw [step, confirmApply, can, shows.shown]
      dsimp only
      rw [if_neg moved, built]
      rfl
    rw [eventOf_eq stepped]
    constructor
    · constructor
      · rfl
      · refine ⟨diff, token, ⟨shows.shown, shows.armed, shows.bound, shows.checks⟩, ?_⟩
        exact Staged.next tokened ⟨messageId, sentAt, envelope, rfl, rfl, carries, carried⟩
    · intro error threw
      cases threw
    · rintro _ ⟨⟩ -
      exact ⟨⟨messageId, sentAt, rfl⟩, diff, token, tokened, carries, carried⟩
    · intro changed
      exact absurd rfl changed

/-- What follows an ingest of a response to the apply that is outstanding. -/
theorem sound_ingested {diff : ScheduleDiff} {token : DartString} {payload : Entries δ}
    {now : DateTime} {result : IngestResult} {exchange : ScheduleExchange}
    {store : DeviceScheduleStore} (corresponds : Corresponds history world.controller)
    (pending : world.controller.state.phase = .applyPending) (outstanding : Outstanding diff token history)
    (current : world.store.knownRevision = diff.expectedRevision)
    (ingests : Ingests diff payload world.controller.exchange world.store result exchange store)
    (stepped : step world (.receive payload now) = (.received (some result),
      ⟨settle { world.controller with exchange } result, store⟩)) :
    Sound history (eventOf world (.receive payload now)) := by
  have phase := corresponds.phase
  rw [pending] at phase
  rw [eventOf_eq stepped]
  cases ingests with
  | @kept seen disposition code declined =>
      apply sound_keep corresponds rfl rfl
      have settled : settle { world.controller with
            exchange := { world.controller.exchange with seenInboundMessageIds := seen } }
          { disposition, code, currentRevision := none } =
          move { world.controller with
            exchange := { world.controller.exchange with seenInboundMessageIds := seen } }
          .applyPending code := by
        obtain rfl | rfl := declined
        · rw [settle]
          dsimp only
          rw [phase]
          rfl
        · rw [settle]
          dsimp only
          rw [phase]
          rfl
      dsimp only
      rw [settled]
      refine ⟨rfl, rfl, rfl, rfl, pending.symm, rfl, ?_⟩
      intro refresh
      rw [pending] at refresh
      cases refresh
  | applied adopts =>
      constructor
      · exact ⟨rfl, trivial⟩
      · intro error threw
        cases threw
      · intro envelope framed
        cases framed
      · intro _
        exact .inr ⟨diff, token, payload, now, outstanding, rfl, current, adopts⟩
  | conflict =>
      apply sound_quiet rfl rfl
      exact ⟨rfl, rfl⟩
  | refused =>
      apply sound_quiet rfl rfl
      exact ⟨rfl, trivial⟩

theorem sound_receive (corresponds : Corresponds history world.controller) (payload : Entries δ)
    (finite : AllFinite (.object payload)) (now : DateTime) :
    Sound history (eventOf world (.receive payload now)) := by
  by_cases pending : world.controller.state.phase = .applyPending
  case neg =>
    have stepped : step world (.receive payload now) = (.received none, world) := by
      rw [step, receive, if_pos pending]
      rfl
    exact sound_declined corresponds stepped rfl
  have stays (code : DartString) : Keeps world.controller
      (world.controller.move .applyPending (some code)) := by
    refine ⟨rfl, rfl, rfl, rfl, pending.symm, rfl, ?_⟩
    intro refresh
    rw [pending] at refresh
    cases refresh
  by_cases other : (!hasType payload "event.syncReceipt" && !hasType payload "error.response") = true
  · have stepped : step world (.receive payload now) = (.received (some {
          disposition := .invalid
          code := some (utf16 "unexpected_response")
          currentRevision := none }),
        ⟨world.controller.move .applyPending (some (utf16 "unexpected_response")),
          world.store⟩) := by
      rw [step, receive, if_neg (not_not.mpr pending), if_pos other]
      rfl
    rw [eventOf_eq stepped]
    exact sound_keep corresponds rfl rfl (stays _)
  have stage := corresponds.stage
  have phase := corresponds.phase
  rw [pending] at stage phase
  obtain ⟨diff, token, shows, outstanding⟩ := stage
  by_cases moved : world.store.knownRevision ≠ diff.expectedRevision
  · have stepped : step world (.receive payload now) = (.received (some {
          disposition := .rejected
          code := some (utf16 "mirror_changed")
          currentRevision := none }),
        ⟨world.controller.move .applyPending (some (utf16 "mirror_changed")), world.store⟩) := by
      rw [step, receive, if_neg (not_not.mpr pending), if_neg other, shows.shown]
      dsimp only
      rw [if_pos moved]
      rfl
    rw [eventOf_eq stepped]
    exact sound_keep corresponds rfl rfl (stays _)
  have response : hasType payload "event.syncReceipt" = true ∨
      hasType payload "error.response" = true := by
    rw [Bool.and_eq_true, Bool.not_eq_true', Bool.not_eq_true', not_and_or, Bool.not_eq_false,
      Bool.not_eq_false] at other
    exact other
  obtain ⟨result, exchange, store, ingested, ingests⟩ := ingest_sent shows.armed phase
    (not_not.mp moved) shows.checks finite now response
  apply sound_ingested corresponds pending outstanding (not_not.mp moved) ingests
  rw [step, receive, if_neg (not_not.mpr pending), if_neg other, shows.shown]
  dsimp only
  rw [if_neg moved, ingested]
  rfl

theorem sound_acknowledgeRefresh (corresponds : Corresponds history world.controller) :
    Sound history (eventOf world (.acknowledgeRefresh : Call δ)) := by
  by_cases declined : world.controller.state.phase ≠ .needsRefresh ∨
      world.controller.state.conflictRevision = none ∨
      some world.store.knownRevision ≠ world.controller.state.conflictRevision
  · have stepped : step world (.acknowledgeRefresh : Call δ) = (.answered false, world) := by
      rw [step, acknowledgeRefresh, if_pos declined]
      rfl
    exact sound_declined corresponds stepped rfl
  have refused := declined
  rw [not_or, not_or, not_not, not_not] at declined
  obtain ⟨refresh, -, known⟩ := declined
  have phase := corresponds.phase
  have stage := corresponds.stage
  rw [refresh] at phase stage
  change world.controller.state.conflictRevision =
    world.controller.exchange.conflictRevision at stage
  have rebased : world.controller.exchange.rebase world.store =
      (.ok (), { world.controller.exchange with conflictRevision := none, phase := .idle }) := by
    rw [ScheduleExchange.rebase, phase, if_neg (by decide), ← stage, ← known]
    dsimp only
    rw [if_neg (by exact not_not.mpr rfl)]
  have stepped : step world (.acknowledgeRefresh : Call δ) = (.answered true,
      ⟨{ exchange := { world.controller.exchange with conflictRevision := none, phase := .idle }
         state := .plain .idle none }, world.store⟩) := by
    rw [step, acknowledgeRefresh, if_neg refused, rebased]
    rfl
  rw [eventOf_eq stepped]
  constructor
  · exact ⟨rfl, trivial⟩
  · intro error threw
    cases threw
  · intro envelope framed
    cases framed
  · intro changed
    exact absurd rfl changed

theorem sound_cancel (corresponds : Corresponds history world.controller) :
    Sound history (eventOf world (.cancel : Call δ)) := by
  by_cases declined : (!world.controller.state.canCancel) = true
  · have stepped : step world (.cancel : Call δ) = (.answered false, world) := by
      rw [step, cancel, if_pos declined]
      rfl
    exact sound_declined corresponds stepped rfl
  have stepped : step world (.cancel : Call δ) = (.answered true,
      ⟨{ exchange := .create, state := .plain .idle none }, world.store⟩) := by
    rw [step, cancel, if_neg declined]
    rfl
  rw [eventOf_eq stepped]
  constructor
  · exact ⟨rfl, trivial⟩
  · intro error threw
    cases threw
  · intro envelope framed
    cases framed
  · intro changed
    exact absurd rfl changed

theorem sound_replaceStore (corresponds : Corresponds history world.controller)
    (store : DeviceScheduleStore) : Sound history (eventOf world (.replaceStore store : Call δ)) := by
  constructor
  · exact corresponds_keep corresponds (plain_of_quiet rfl) (.refl _)
  · intro error threw
    cases threw
  · intro envelope framed
    cases framed
  · intro _
    exact .inl ⟨store, rfl⟩

/-- The payloads of the call carry finite numbers only. -/
def Call.IsFinite : Call δ → Prop
  | .receive payload _ => AllFinite (.object payload)
  | _ => True

theorem step_sound (corresponds : Corresponds history world.controller) {call : Call δ}
    (finite : call.IsFinite) : Sound history (eventOf world call) := by
  cases call with
  | review proposal => exact sound_review corresponds proposal
  | requestPreview messageId sentAt => exact sound_requestPreview corresponds messageId sentAt
  | receiveToken token => exact sound_receiveToken corresponds token
  | confirmApply messageId sentAt => exact sound_confirmApply corresponds messageId sentAt
  | receive payload now => exact sound_receive corresponds payload finite now
  | acknowledgeRefresh => exact sound_acknowledgeRefresh corresponds
  | cancel => exact sound_cancel corresponds
  | replaceStore store => exact sound_replaceStore corresponds store

end Step

/-! ### Runs of the flow -/

section Runs

theorem sound_trace {world : World} {history : List (Event δ)} {calls : List (Call δ)}
    (corresponds : Corresponds history world.controller) (finite : ∀ call ∈ calls, call.IsFinite)
    {older newer : List (Event δ)} {event : Event δ}
    (split : trace world calls = older ++ event :: newer) : Sound (history ++ older) event := by
  induction calls generalizing world history older with
  | nil => exact absurd split (by simp [trace])
  | cons call calls ih =>
      rw [List.forall_mem_cons] at finite
      have sound := step_sound corresponds finite.1
      rw [trace] at split
      cases older with
      | nil =>
          obtain ⟨rfl, -⟩ := List.cons.inj split
          rwa [List.append_nil]
      | cons first older =>
          obtain ⟨rfl, later⟩ := List.cons.inj split
          have next := ih sound.corresponds finite.2 later
          rwa [List.append_assoc, List.singleton_append] at next

theorem corresponds_create : Corresponds ([] : List (Event δ)) create := by
  constructor
  · rfl
  · trivial

/-- In every run of the flow, whatever is asked of it and received, and whoever replaces the
store: no error escapes; the flow and the exchange are in corresponding phases; an apply
is framed by `confirmApply` alone, for the diff last reviewed, whose preview was framed and
whose token was received since; and the flow changes the store only by adopting a receipt
for the apply that is outstanding, at the revision that the apply expects. -/
theorem flow_safe (store : DeviceScheduleStore) (calls : List (Call δ))
    (finite : ∀ call ∈ calls, call.IsFinite) (older newer : List (Event δ)) (event : Event δ)
    (split : trace { controller := create, store } calls = older ++ event :: newer) :
    (∀ error, event.outcome ≠ .threw error) ∧
      event.after.controller.exchange.phase = exchangePhase event.after.controller.state.phase ∧
      (∀ envelope, event.outcome = .framed (some envelope) →
        index envelope (utf16 "type") = .string (utf16 "schedule.apply") →
          (∃ messageId sentAt, event.call = .confirmApply messageId sentAt) ∧
          ∃ diff token, Tokened diff token older ∧ Carries diff envelope ∧
            tokenOf envelope = .string token) ∧
      (event.after.store ≠ event.before.store →
        (∃ outside, event.call = .replaceStore outside) ∨
          ∃ diff token payload now, Outstanding diff token older ∧
            event.call = .receive payload now ∧
            event.before.store.knownRevision = diff.expectedRevision ∧
            Adopts diff payload event.before.store event.after.store) := by
  have sound := sound_trace corresponds_create finite split
  exact ⟨sound.silent, sound.corresponds.phase, sound.apply, sound.store⟩

/-- One alarm is added: reviewed, previewed, and applied with the token `t1`. -/
def applyImported : List (Call Empty) :=
  [.review [imported (utf16 "e1")], .requestPreview (utf16 "m1") ScheduleExchange.epoch, .receiveToken (utf16 "t1"),
    .confirmApply (utf16 "m2") ScheduleExchange.epoch]

def framesApply (event : Event Empty) : Bool :=
  match event.outcome with
  | .framed (some envelope) =>
    isString (· == utf16 "schedule.apply") (index envelope (utf16 "type"))
  | _ => false

theorem flow_safe_applyImported : ∃ event envelope,
    (trace { controller := create, store := .empty } applyImported)[3]? = some event ∧
      event.outcome = .framed (some envelope) ∧ ∃ diff token,
        Tokened diff token
          ((trace { controller := create, store := .empty } applyImported).take 3) ∧
        Carries diff envelope ∧ tokenOf envelope = .string token := by
  let events := trace { controller := create, store := .empty } applyImported
  let reviewed := eventOf { controller := create, store := .empty } (.review [imported (utf16 "e1")] : Call Empty)
  let previewed := eventOf reviewed.after
    (.requestPreview (utf16 "m1") ScheduleExchange.epoch : Call Empty)
  let tokened := eventOf previewed.after (.receiveToken (utf16 "t1") : Call Empty)
  let event := eventOf tokened.after
    (.confirmApply (utf16 "m2") ScheduleExchange.epoch : Call Empty)
  have split : events = events.take 3 ++ event :: [] := rfl
  have finite : ∀ call ∈ applyImported, call.IsFinite := by
    rw [applyImported]
    simp only [List.forall_mem_cons]
    exact ⟨trivial, trivial, trivial, trivial, List.forall_mem_nil _⟩
  have frames : framesApply event = true := by
    decide +kernel
  rw [framesApply] at frames
  split at frames
  · rename_i envelope outcome
    obtain ⟨text, found, same⟩ := index_of_isString frames
    rw [beq_iff_eq.mp same] at found
    obtain ⟨-, diff, token, tokened, carries, carried⟩ :=
      (flow_safe .empty applyImported finite _ _ event split).2.2.1 envelope outcome found
    exact ⟨event, envelope, rfl, outcome, diff, token, tokened, carries, carried⟩
  · cases frames

end Runs

end ScheduleFlowController

end DawnDock.App
