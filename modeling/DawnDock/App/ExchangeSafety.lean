import DawnDock.App.Responses
import DawnDock.Library.Staged

/-!
The exchange over any run of calls (`exchange_safe`).

A run is folded into its history. Where the exchange stands is explained by what happened
since the proposal was armed (`Explained`): an armed proposal, a preview framed for it,
a token received after that, an apply framed with the token, each followed by events that
change none of this. `step_explained` keeps the explanation over one call.
-/

namespace DawnDock.App

namespace ScheduleExchange

variable {δ : Type} [Double δ]

/-- The exchange and the store it was made for. -/
structure Session where
  exchange : ScheduleExchange
  store : DeviceScheduleStore

/-- A call, or a replacement of the store by someone else. -/
inductive Call (δ : Type) where
  | beginPreview (diff : ScheduleDiff)
  | buildPreview (messageId : DartString) (sentAt : DateTime)
  | receiveApplyToken (token : DartString)
  | buildApply (messageId : DartString) (sentAt : DateTime)
  | ingest (payload : Entries δ) (now : DateTime)
  | rebase
  | abort
  | reset
  | replaceStore (store : DeviceScheduleStore)

inductive Outcome (δ : Type) where
  | done
  | preview (envelope : Entries δ)
  | apply (envelope : Entries δ)
  | ingested (result : IngestResult)
  | threw (error : DartError)

def settled : Except DartError Unit → Outcome δ
  | .ok () => .done
  | .error error => .threw error

def framed (kind : Entries δ → Outcome δ) : Except DartError (Entries δ) → Outcome δ
  | .ok envelope => kind envelope
  | .error error => .threw error

def step (session : Session) (call : Call δ) : Outcome δ × Session :=
  match call with
  | .beginPreview diff =>
    let (result, exchange) := session.exchange.beginPreview δ session.store diff
    (settled result, { session with exchange })
  | .buildPreview messageId sentAt =>
    let (result, exchange) := session.exchange.buildPreview messageId sentAt
    (framed .preview result, { session with exchange })
  | .receiveApplyToken token =>
    let (result, exchange) := session.exchange.receiveApplyToken token
    (settled result, { session with exchange })
  | .buildApply messageId sentAt =>
    let (result, exchange) := session.exchange.buildApply session.store messageId sentAt
    (framed .apply result, { session with exchange })
  | .ingest payload now =>
    let (result, exchange, store) := session.exchange.ingest session.store payload now
    (match result with
      | .ok result => .ingested result
      | .error error => .threw error, { exchange, store })
  | .rebase =>
    let (result, exchange) := session.exchange.rebase session.store
    (settled result, { session with exchange })
  | .abort =>
    let (result, exchange) := session.exchange.abort
    (settled result, { session with exchange })
  | .reset =>
    let (result, exchange) := session.exchange.reset
    (settled result, { session with exchange })
  | .replaceStore store => (.done, { session with store })

structure Event (δ : Type) where
  before : Session
  call : Call δ
  outcome : Outcome δ
  after : Session

def eventOf (session : Session) (call : Call δ) : Event δ :=
  { before := session, call, outcome := (step session call).1, after := (step session call).2 }

/-- The events of a run in turn. -/
def trace : Session → List (Call δ) → List (Event δ)
  | _, [] => []
  | session, call :: rest => eventOf session call :: trace (eventOf session call).after rest

/-! ### What an event is -/

def Event.isPreview (event : Event δ) : Bool :=
  match event.outcome with
  | .preview _ => true
  | _ => false

def Event.isApply (event : Event δ) : Bool :=
  match event.outcome with
  | .apply _ => true
  | _ => false

/-- A token was received. -/
def Event.isToken (event : Event δ) : Bool :=
  match event.call, event.outcome with
  | .receiveApplyToken _, .done => true
  | _, _ => false

/-- An event that leaves the proposal armed, frames nothing and receives no token. -/
structure Quiet (diff : ScheduleDiff) (event : Event δ) : Prop where
  preview : event.isPreview = false
  apply : event.isApply = false
  token : event.isToken = false
  armed : event.before.exchange.armed = some diff ∧ event.after.exchange.armed = some diff

/-- The entries of an envelope that are the subject here. -/
def revisionOf (envelope : Entries δ) : Value δ := index envelope (utf16 "expectedRevision")

def bodyOf (envelope : Entries δ) : Entries δ := asEntries (index envelope (utf16 "body"))

def alarmsOf (envelope : Entries δ) : Value δ := index (bodyOf envelope) (utf16 "alarms")

def tokenOf (envelope : Entries δ) : Value δ := index (bodyOf envelope) (utf16 "applyToken")

/-- The envelope carries the alarms and the expected revision of the proposal. -/
structure Carries (diff : ScheduleDiff) (envelope : Entries δ) : Prop where
  alarms : alarmsOf envelope = .array diff.toWirePreviewBody
  revision : revisionOf envelope = .number (.int diff.expectedRevision)

/-! ### Stages -/

/-- The proposal was armed. -/
def Arms (diff : ScheduleDiff) (event : Event δ) : Prop :=
  event.call = .beginPreview diff ∧ event.outcome = .done

/-- A preview was framed for it. -/
def Previews (diff : ScheduleDiff) (event : Event δ) : Prop :=
  ∃ envelope, event.outcome = .preview envelope ∧ Carries diff envelope

/-- The token was received. -/
def Receives (token : DartString) (event : Event δ) : Prop :=
  event.call = .receiveApplyToken token ∧ event.outcome = .done

/-- An apply was framed for the proposal, with the token. -/
def Applies (diff : ScheduleDiff) (token : DartString) (event : Event δ) : Prop :=
  ∃ envelope, event.outcome = .apply envelope ∧ Carries diff envelope ∧
    tokenOf envelope = .string token

def Armed (diff : ScheduleDiff) : List (Event δ) → Prop := Staged (Quiet diff) [Arms diff]

def Previewed (diff : ScheduleDiff) : List (Event δ) → Prop :=
  Staged (Quiet diff) [Previews diff, Arms diff]

def Tokened (diff : ScheduleDiff) (token : DartString) : List (Event δ) → Prop :=
  Staged (Quiet diff) [Receives token, Previews diff, Arms diff]

def Outstanding (diff : ScheduleDiff) (token : DartString) : List (Event δ) → Prop :=
  Staged (Quiet diff) [Applies diff token, Receives token, Previews diff, Arms diff]

/-- What the history says of where the exchange stands. -/
def Explained (history : List (Event δ)) (exchange : ScheduleExchange) : Prop :=
  match exchange.phase with
  | .idle => ∀ diff, exchange.armed = some diff → Armed diff history
  | .previewSent => ∃ diff, exchange.armed = some diff ∧ Previewed diff history
  | .readyToApply => ∃ diff token, exchange.armed = some diff ∧
      exchange.boundToken = some token ∧ Tokened diff token history
  | .applySent => ∃ diff token, exchange.armed = some diff ∧ Outstanding diff token history
  | .needsRefresh => exchange.armed = none
  | .applied => exchange.armed = none

/-! ### What an operation can do -/

section Operations

variable {exchange : ScheduleExchange} {store : DeviceScheduleStore}

theorem allFinite_wire (draft : AlarmDraft) : AllFinite (draft.toWireAlarm : Value δ) := by
  have days : AllFinite (.array (draft.toWireDays.map fun day => .number (.int day)) : Value δ) := by
    rw [allFinite_array]
    intro element mem
    obtain ⟨day, -, rfl⟩ := List.mem_map.mp mem
    rw [AllFinite, Json.values, List.forall_mem_singleton]
    trivial
  rw [AlarmDraft.toWireAlarm, allFinite_object]
  simp only [List.forall_mem_cons]
  refine ⟨?_, ?_, ?_, ?_, days, ?_, ?_, ?_, ?_, ?_, ?eventId, List.forall_mem_nil _⟩
  case eventId =>
    cases draft.provenance with
    | none => simp [AllFinite, Json.values, IsFinite]
    | some provenance => simp [AllFinite, Json.values, IsFinite]
  all_goals
    rw [AllFinite, Json.values, List.forall_mem_singleton]
    trivial

theorem digest_isSome (diff : ScheduleDiff) :
    ∃ bound, digest (diff.toWirePreviewBody : List (Value δ)) = some bound := by
  apply Option.isSome_iff_exists.mp
  apply encodeValue_isSome
  rw [allFinite_array]
  intro element mem
  obtain ⟨draft, -, rfl⟩ := List.mem_map.mp mem
  exact allFinite_wire draft

theorem beginPreview_cases (exchange : ScheduleExchange) (store : DeviceScheduleStore)
    (diff : ScheduleDiff) :
    (∃ error, exchange.beginPreview δ store diff = (.error error, exchange)) ∨
      ∃ bound, exchange.beginPreview δ store diff =
          (.ok (), { exchange with armed := some diff, boundDigest := some bound }) ∧
        digest (diff.toWirePreviewBody : List (Value δ)) = some bound ∧
        exchange.phase = .idle ∧ exchange.armed = none ∧
        diff.expectedRevision = store.knownRevision := by
  unfold beginPreview
  split
  · exact .inl ⟨_, rfl⟩
  rename_i idle
  split
  · exact .inl ⟨_, rfl⟩
  rename_i unarmed
  split
  · exact .inl ⟨_, rfl⟩
  rename_i current
  obtain ⟨bound, found⟩ := @digest_isSome δ _ diff
  rw [found]
  rw [Bool.not_eq_true, Option.isSome_eq_false_iff, Option.isNone_iff_eq_none] at unarmed
  exact .inr ⟨bound, rfl, rfl, not_not.mp idle, unarmed, not_not.mp current⟩

theorem buildEnvelope_ok {type messageId : DartString} {sentAt : DateTime} {revision : Int64}
    {body envelope : Entries δ}
    (built : buildEnvelope type messageId sentAt revision body = .ok envelope) :
    ∃ sentAtText, envelope = envelopeEntries type messageId sentAtText revision body := by
  unfold buildEnvelope at built
  split at built
  · cases built
  cases formatted : formatSentAt sentAt with
  | error error =>
      rw [formatted] at built
      cases built
  | ok sentAtText =>
      rw [formatted] at built
      dsimp only [Bind.bind, Except.bind] at built
      split at built
      · cases built
      split at built
      · cases built
      · cases built
        exact ⟨sentAtText, rfl⟩

omit [Double δ] in
theorem carries_envelope (diff : ScheduleDiff) {type messageId sentAtText : DartString}
    {body : Entries δ}
    (alarms : index body (utf16 "alarms") = .array diff.toWirePreviewBody) :
    Carries diff (envelopeEntries type messageId sentAtText diff.expectedRevision body) :=
  ⟨alarms, rfl⟩

theorem buildPreview_cases (exchange : ScheduleExchange) (messageId : DartString)
    (sentAt : DateTime) :
    (∃ error, exchange.buildPreview messageId sentAt =
      ((.error error, exchange) : Except DartError (Entries δ) × ScheduleExchange)) ∨
      ∃ diff envelope, exchange.buildPreview messageId sentAt =
          ((.ok envelope, { exchange with phase := .previewSent }) :
            Except DartError (Entries δ) × ScheduleExchange) ∧
        exchange.armed = some diff ∧ exchange.phase = .idle ∧ Carries diff envelope := by
  unfold buildPreview
  split
  · exact .inl ⟨_, rfl⟩
  rename_i diff armed
  split
  · exact .inl ⟨_, rfl⟩
  rename_i idle
  split
  · exact .inl ⟨_, rfl⟩
  · rename_i envelope built
    obtain ⟨sentAtText, rfl⟩ := buildEnvelope_ok built
    exact .inr ⟨diff, _, rfl, armed, not_not.mp idle, carries_envelope diff rfl⟩

theorem buildApply_cases (exchange : ScheduleExchange) (store : DeviceScheduleStore)
    (messageId : DartString) (sentAt : DateTime) :
    (∃ error, exchange.buildApply store messageId sentAt =
      ((.error error, exchange) : Except DartError (Entries δ) × ScheduleExchange)) ∨
      ∃ diff envelope, exchange.buildApply store messageId sentAt =
          ((.ok envelope, { exchange with phase := .applySent }) :
            Except DartError (Entries δ) × ScheduleExchange) ∧
        exchange.armed = some diff ∧ exchange.phase = .readyToApply ∧
        store.knownRevision = diff.expectedRevision ∧ Carries diff envelope ∧
        ∀ token, exchange.boundToken = some token → tokenOf envelope = .string token := by
  unfold buildApply
  split
  · exact .inl ⟨_, rfl⟩
  rename_i diff armed
  split
  · exact .inl ⟨_, rfl⟩
  rename_i ready
  split
  · exact .inl ⟨_, rfl⟩
  rename_i current
  split
  · exact .inl ⟨_, rfl⟩
  split
  · exact .inl ⟨_, rfl⟩
  · rename_i envelope built
    obtain ⟨sentAtText, rfl⟩ := buildEnvelope_ok built
    refine .inr ⟨diff, _, rfl, armed, not_not.mp ready, not_not.mp current,
      carries_envelope diff rfl, ?_⟩
    intro token bound
    rw [bound]
    rfl

theorem receiveApplyToken_cases (exchange : ScheduleExchange) (token : DartString) :
    (∃ error, exchange.receiveApplyToken token = (.error error, exchange)) ∨
      exchange.receiveApplyToken token =
          (.ok (), { exchange with boundToken := some token, phase := .readyToApply }) ∧
        exchange.phase = .previewSent := by
  unfold receiveApplyToken
  split
  · exact .inl ⟨_, rfl⟩
  rename_i sent
  split
  · exact .inl ⟨_, rfl⟩
  · exact .inr ⟨rfl, not_not.mp sent⟩

theorem rebase_cases (exchange : ScheduleExchange) (store : DeviceScheduleStore) :
    (∃ error, exchange.rebase store = (.error error, exchange)) ∨
      exchange.rebase store = (.ok (), { exchange with conflictRevision := none, phase := .idle }) ∧
        exchange.phase = .needsRefresh := by
  unfold rebase
  split
  · exact .inl ⟨_, rfl⟩
  rename_i refresh
  split
  · exact .inl ⟨_, rfl⟩
  split
  · exact .inl ⟨_, rfl⟩
  · exact .inr ⟨rfl, not_not.mp refresh⟩

theorem abort_cases (exchange : ScheduleExchange) :
    (∃ error, exchange.abort = (.error error, exchange)) ∨
      exchange.abort = (.ok (), { exchange.disarm with conflictRevision := none, phase := .idle }) := by
  unfold abort
  split
  · exact .inl ⟨_, rfl⟩
  · exact .inr rfl

theorem reset_cases (exchange : ScheduleExchange) :
    (∃ error, exchange.reset = (.error error, exchange)) ∨
      exchange.reset = (.ok (), { exchange with phase := .idle }) ∧ exchange.phase = .applied := by
  unfold reset
  split
  · exact .inl ⟨_, rfl⟩
  · rename_i applied
    exact .inr ⟨rfl, not_not.mp applied⟩

/-- A receipt for the proposal is adopted by the store. -/
structure Adopts (diff : ScheduleDiff) (payload : Entries δ) (before after : DeviceScheduleStore) :
    Prop where
  type : asString (index payload (utf16 "type")) = utf16 "event.syncReceipt"
  revision : ∃ revision, index (bodyOf payload) (utf16 "appliedRevision") = .number (.int revision) ∧
    revision.toInt = diff.expectedRevision.toInt + 1 ∧ after.knownRevision = revision
  count : ∃ count, index (bodyOf payload) (utf16 "alarmCount") = .number (.int count) ∧
    count.toInt = diff.proposedOrder.length
  advances : before.knownRevision < after.knownRevision
  committed : after.committed = diff.proposedOrder

omit [Double δ] in
theorem validateBody_receipt {body : Value δ}
    (valid : validateBody (utf16 "event.syncReceipt") body = .accepted) :
    validateSyncReceiptBody (asEntries body) = .accepted := by
  cases body with
  | object entries =>
      have other : kRevisionRequiredTypes.contains (utf16 "event.syncReceipt") = false := by
        decide +kernel
      have response : (utf16 "event.syncReceipt" == utf16 "error.response") = false := by
        decide +kernel
      rw [validateBody, other, response, beq_self_eq_true] at valid
      exact valid
  | _ => cases valid

omit [Double δ] in
/-- What `ingest` leaves where it has ingested a receipt. -/
theorem ingestReceipt_cases (exchange : ScheduleExchange) (store : DeviceScheduleStore)
    {payload : Entries δ} (now : DateTime)
    (type : asString (index payload (utf16 "type")) = utf16 "event.syncReceipt")
    (valid : validateSyncReceiptBody (bodyOf payload) = .accepted) :
    (exchange.ingestReceipt store (bodyOf payload) now).2 = (exchange, store) ∨
      ∃ diff, exchange.armed = some diff ∧
        (exchange.ingestReceipt store (bodyOf payload) now).2.1 =
          { exchange.disarm with phase := .applied } ∧
        Adopts diff payload store (exchange.ingestReceipt store (bodyOf payload) now).2.2 := by
  obtain ⟨receipt, read, revision, count, nonneg⟩ := readReceipt_ok valid
  unfold ingestReceipt
  split
  · exact .inl rfl
  rename_i diff armed
  rw [read]
  dsimp only
  split
  · exact .inl rfl
  rename_i fits
  rw [not_or, not_not, not_not] at fits
  split
  · exact .inl rfl
  · rename_i after recorded
    obtain ⟨-, later, committed, known⟩ := of_recordApplied recorded
    refine .inr ⟨diff, armed, rfl, ?_⟩
    exact {
      type := type
      revision := ⟨_, revision, toInt_succ fits.1 nonneg, known⟩
      count := ⟨_, count, fits.2⟩
      advances := by rwa [known]
      committed := committed }

omit [Double δ] in
/-- An error gives up the armed proposal. -/
theorem ingestError_cases (exchange : ScheduleExchange) (store : DeviceScheduleStore)
    (body : Entries δ) :
    (exchange.ingestError store body).2 = (exchange, store) ∨
      ∃ conflictRevision phase, (exchange.ingestError store body).2 =
          ({ exchange.disarm with conflictRevision, phase }, store) ∧
        (phase = .needsRefresh ∨ phase = .idle) := by
  unfold ingestError
  dsimp only
  split
  · exact .inl rfl
  split
  · exact .inr ⟨_, .needsRefresh, rfl, .inl rfl⟩
  · exact .inr ⟨_, .idle, rfl, .inr rfl⟩

/-- An ingest keeps everything but the replay set, adopts a receipt, or gives up the
proposal. -/
theorem ingest_cases (exchange : ScheduleExchange) (store : DeviceScheduleStore)
    (payload : Entries δ) (now : DateTime) :
    (∃ seen, (exchange.ingest store payload now).2 =
      ({ exchange with seenInboundMessageIds := seen }, store)) ∨
    (exchange.phase = .applySent ∧ ∃ seen diff, exchange.armed = some diff ∧
      (exchange.ingest store payload now).2.1 =
        { exchange.disarm with seenInboundMessageIds := seen, phase := .applied } ∧
      Adopts diff payload store (exchange.ingest store payload now).2.2) ∨
    ∃ seen conflictRevision phase, (exchange.ingest store payload now).2 =
        ({ exchange.disarm with seenInboundMessageIds := seen, conflictRevision, phase }, store) ∧
      (phase = .needsRefresh ∨ phase = .idle) := by
  unfold ingest
  split
  · exact .inl ⟨_, rfl⟩
  rename_i sent
  split
  · exact .inl ⟨_, rfl⟩
  rename_i gate window answered
  dsimp only
  split
  · exact .inl ⟨_, rfl⟩
  rename_i accepted
  rw [not_not.mp accepted] at answered
  have valid := validateBody_of_accepted answered
  split
  · rename_i type
    rw [type] at valid
    obtain kept | ⟨diff, armed, left, adopts⟩ := ingestReceipt_cases
      { exchange with seenInboundMessageIds := window.getD exchange.seenInboundMessageIds } store
      now type (validateBody_receipt valid)
    · exact .inl ⟨_, kept⟩
    · exact .inr (.inl ⟨not_not.mp sent, _, diff, armed, left, adopts⟩)
  split
  · obtain kept | ⟨conflictRevision, phase, left, reached⟩ := ingestError_cases
      { exchange with seenInboundMessageIds := window.getD exchange.seenInboundMessageIds } store
      (asEntries (index payload (utf16 "body")))
    · exact .inl ⟨_, kept⟩
    · exact .inr (.inr ⟨_, conflictRevision, phase, left, reached⟩)
  · exact .inl ⟨_, rfl⟩

end Operations

/-! ### One call -/

section Explanations

variable {diff : ScheduleDiff} {token : DartString} {history : List (Event δ)} {event : Event δ}

omit [Double δ]

/-- Phase, proposal and token are as before. -/
structure Keeps (before after : ScheduleExchange) : Prop where
  phase : after.phase = before.phase
  armed : after.armed = before.armed
  boundToken : after.boundToken = before.boundToken

/-- An event that frames nothing and receives no token. -/
structure Plain (event : Event δ) : Prop where
  preview : event.isPreview = false
  apply : event.isApply = false
  token : event.isToken = false

theorem quiet_of_keeps (plain : Plain event)
    (keeps : Keeps event.before.exchange event.after.exchange)
    (armed : event.before.exchange.armed = some diff) : Quiet diff event :=
  ⟨plain.preview, plain.apply, plain.token, armed, keeps.armed.trans armed⟩

/-- What keeps the exchange keeps its explanation. -/
theorem explained_keeps (explained : Explained history event.before.exchange) (plain : Plain event)
    (keeps : Keeps event.before.exchange event.after.exchange) :
    Explained (history ++ [event]) event.after.exchange := by
  unfold Explained at explained ⊢
  rw [keeps.phase, keeps.armed, keeps.boundToken]
  cases phase : event.before.exchange.phase with
  | idle =>
      rw [phase] at explained
      intro diff armed
      exact Staged.concat (explained diff armed) (quiet_of_keeps plain keeps armed)
  | previewSent =>
      rw [phase] at explained
      obtain ⟨diff, armed, previewed⟩ := explained
      exact ⟨diff, armed, Staged.concat previewed (quiet_of_keeps plain keeps armed)⟩
  | readyToApply =>
      rw [phase] at explained
      obtain ⟨diff, token, armed, bound, tokened⟩ := explained
      exact ⟨diff, token, armed, bound, Staged.concat tokened (quiet_of_keeps plain keeps armed)⟩
  | applySent =>
      rw [phase] at explained
      obtain ⟨diff, token, armed, outstanding⟩ := explained
      exact ⟨diff, token, armed, Staged.concat outstanding (quiet_of_keeps plain keeps armed)⟩
  | needsRefresh =>
      rw [phase] at explained
      exact explained
  | applied =>
      rw [phase] at explained
      exact explained

/-- An exchange without a proposal needs no explanation. -/
theorem explained_unarmed {exchange : ScheduleExchange} (unarmed : exchange.armed = none)
    (phase : exchange.phase = .idle ∨ exchange.phase = .needsRefresh ∨ exchange.phase = .applied) :
    Explained history exchange := by
  unfold Explained
  obtain phase | phase | phase := phase
  · rw [phase]
    intro diff armed
    rw [unarmed] at armed
    cases armed
  · rw [phase]
    exact unarmed
  · rw [phase]
    exact unarmed

end Explanations

section Step

variable {session : Session} {history : List (Event δ)}

theorem explained_threw {call : Call δ} {error : DartError}
    (explained : Explained history session.exchange)
    (stepped : step session call = (.threw error, session)) :
    Explained (history ++ [eventOf session call]) (eventOf session call).after.exchange := by
  have outcome : (eventOf session call).outcome = .threw error := congrArg Prod.fst stepped
  have after : (eventOf session call).after = session := congrArg Prod.snd stepped
  apply explained_keeps explained
  · constructor
    · rw [Event.isPreview, outcome]
    · rw [Event.isApply, outcome]
    · rw [Event.isToken, outcome]
      cases (eventOf session call).call
      all_goals rfl
  · rw [after]
    exact ⟨rfl, rfl, rfl⟩

theorem explained_beginPreview (explained : Explained history session.exchange)
    (diff : ScheduleDiff) :
    Explained (history ++ [(eventOf session (.beginPreview diff) : Event δ)])
      (eventOf session (.beginPreview diff : Call δ)).after.exchange := by
  obtain ⟨error, threw⟩ | ⟨bound, begun, -, idle, -, -⟩ :=
    @beginPreview_cases δ _ session.exchange session.store diff
  · apply explained_threw explained
    rw [step, threw]
    rfl
  · have stepped : step session (.beginPreview diff : Call δ) = (.done, { session with exchange :=
        { session.exchange with armed := some diff, boundDigest := some bound } }) := by
      rw [step, begun]
      rfl
    have after := congrArg (fun result => Session.exchange result.2) stepped
    dsimp only at after
    rw [Explained, eventOf, after]
    dsimp only
    rw [idle]
    rintro _ ⟨⟩
    exact Staged.next .start ⟨rfl, congrArg Prod.fst stepped⟩

theorem explained_buildPreview (explained : Explained history session.exchange)
    (messageId : DartString) (sentAt : DateTime) :
    Explained (history ++ [(eventOf session (.buildPreview messageId sentAt) : Event δ)])
      (eventOf session (.buildPreview messageId sentAt : Call δ)).after.exchange := by
  obtain ⟨error, threw⟩ | ⟨diff, envelope, built, armed, idle, carries⟩ :=
    @buildPreview_cases δ _ session.exchange messageId sentAt
  · apply explained_threw explained
    rw [step, threw]
    rfl
  · have stepped : step session (.buildPreview messageId sentAt : Call δ) = (.preview envelope,
        { session with exchange := { session.exchange with phase := .previewSent } }) := by
      rw [step, built]
      rfl
    rw [Explained, idle] at explained
    have after := congrArg (fun result => Session.exchange result.2) stepped
    dsimp only at after
    rw [Explained, eventOf, after]
    dsimp only
    exact ⟨diff, armed, Staged.next (explained diff armed)
      ⟨envelope, congrArg Prod.fst stepped, carries⟩⟩

theorem explained_receiveApplyToken (explained : Explained history session.exchange)
    (token : DartString) :
    Explained (history ++ [(eventOf session (.receiveApplyToken token) : Event δ)])
      (eventOf session (.receiveApplyToken token : Call δ)).after.exchange := by
  obtain ⟨error, threw⟩ | ⟨received, sent⟩ := receiveApplyToken_cases session.exchange token
  · apply explained_threw explained
    rw [step, threw]
    rfl
  · have stepped : step session (.receiveApplyToken token : Call δ) = (.done, { session with
        exchange := { session.exchange with boundToken := some token, phase := .readyToApply } }) := by
      rw [step, received]
      rfl
    rw [Explained, sent] at explained
    obtain ⟨diff, armed, previewed⟩ := explained
    have after := congrArg (fun result => Session.exchange result.2) stepped
    dsimp only at after
    rw [Explained, eventOf, after]
    dsimp only
    exact ⟨diff, token, armed, rfl, Staged.next previewed ⟨rfl, congrArg Prod.fst stepped⟩⟩

/-- An apply is framed for a proposal whose preview was framed and whose token received. -/
theorem apply_explained (explained : Explained history session.exchange) {messageId : DartString}
    {sentAt : DateTime} {envelope : Entries δ}
    (built : (session.exchange.buildApply session.store messageId sentAt).1 = .ok envelope) :
    ∃ diff token, session.exchange.armed = some diff ∧ Tokened diff token history ∧
      Carries diff envelope ∧ tokenOf envelope = .string token := by
  obtain ⟨error, threw⟩ | ⟨diff, found, framed, armed, ready, -, carries, carried⟩ :=
    @buildApply_cases δ _ session.exchange session.store messageId sentAt
  · rw [threw] at built
    cases built
  · rw [framed] at built
    cases built
    rw [Explained, ready] at explained
    obtain ⟨other, token, same, bound, tokened⟩ := explained
    rw [armed] at same
    cases same
    exact ⟨diff, token, armed, tokened, carries, carried token bound⟩

theorem explained_buildApply (explained : Explained history session.exchange)
    (messageId : DartString) (sentAt : DateTime) :
    Explained (history ++ [(eventOf session (.buildApply messageId sentAt) : Event δ)])
      (eventOf session (.buildApply messageId sentAt : Call δ)).after.exchange := by
  obtain ⟨error, threw⟩ | ⟨_, envelope, built, -⟩ :=
    @buildApply_cases δ _ session.exchange session.store messageId sentAt
  · apply explained_threw explained
    rw [step, threw]
    rfl
  · obtain ⟨diff, token, armed, tokened, carries, carried⟩ :=
      apply_explained explained (congrArg Prod.fst built)
    have stepped : step session (.buildApply messageId sentAt : Call δ) = (.apply envelope,
        { session with exchange := { session.exchange with phase := .applySent } }) := by
      rw [step, built]
      rfl
    have after := congrArg (fun result => Session.exchange result.2) stepped
    dsimp only at after
    rw [Explained, eventOf, after]
    dsimp only
    exact ⟨diff, token, armed, Staged.next tokened
      ⟨envelope, congrArg Prod.fst stepped, carries, carried⟩⟩

theorem plain_ingest (payload : Entries δ) (now : DateTime) :
    Plain (eventOf session (.ingest payload now)) := by
  have outcome : (∃ result, (eventOf session (.ingest payload now)).outcome = .ingested result) ∨
      ∃ error, (eventOf session (.ingest payload now)).outcome = .threw error := by
    rw [eventOf, step]
    obtain ⟨result | error, exchange, store⟩ := session.exchange.ingest session.store payload now
    · exact .inr ⟨result, rfl⟩
    · exact .inl ⟨error, rfl⟩
  obtain ⟨result, outcome⟩ | ⟨error, outcome⟩ := outcome
  · constructor
    · rw [Event.isPreview, outcome]
    · rw [Event.isApply, outcome]
    · rfl
  · constructor
    · rw [Event.isPreview, outcome]
    · rw [Event.isApply, outcome]
    · rfl

theorem explained_ingest (explained : Explained history session.exchange) (payload : Entries δ)
    (now : DateTime) :
    Explained (history ++ [eventOf session (.ingest payload now)])
      (eventOf session (.ingest payload now)).after.exchange := by
  have exchange : (eventOf session (.ingest payload now)).after.exchange =
      (session.exchange.ingest session.store payload now).2.1 := rfl
  obtain ⟨seen, kept⟩ | ⟨-, seen, diff, -, left, -⟩ | ⟨seen, conflictRevision, phase, left, reached⟩ :=
    ingest_cases session.exchange session.store payload now
  · apply explained_keeps explained (plain_ingest payload now)
    rw [exchange, kept]
    exact ⟨rfl, rfl, rfl⟩
  · rw [exchange, left]
    exact explained_unarmed rfl (.inr (.inr rfl))
  · rw [exchange, left]
    apply explained_unarmed rfl
    obtain rfl | rfl := reached
    · exact .inr (.inl rfl)
    · exact .inl rfl

theorem explained_rebase (explained : Explained history session.exchange) :
    Explained (history ++ [(eventOf session .rebase : Event δ)])
      (eventOf session (.rebase : Call δ)).after.exchange := by
  obtain ⟨error, threw⟩ | ⟨rebased, refresh⟩ := rebase_cases session.exchange session.store
  · apply explained_threw explained
    rw [step, threw]
    rfl
  · rw [Explained, refresh] at explained
    have after : (eventOf session (.rebase : Call δ)).after.exchange =
        { session.exchange with conflictRevision := none, phase := .idle } :=
      congrArg Prod.snd rebased
    rw [after]
    exact explained_unarmed explained (.inl rfl)

theorem explained_abort (explained : Explained history session.exchange) :
    Explained (history ++ [(eventOf session .abort : Event δ)])
      (eventOf session (.abort : Call δ)).after.exchange := by
  obtain ⟨error, threw⟩ | aborted := abort_cases session.exchange
  · apply explained_threw explained
    rw [step, threw]
    rfl
  · have after : (eventOf session (.abort : Call δ)).after.exchange =
        { session.exchange.disarm with conflictRevision := none, phase := .idle } :=
      congrArg Prod.snd aborted
    rw [after]
    exact explained_unarmed rfl (.inl rfl)

theorem explained_reset (explained : Explained history session.exchange) :
    Explained (history ++ [(eventOf session .reset : Event δ)])
      (eventOf session (.reset : Call δ)).after.exchange := by
  obtain ⟨error, threw⟩ | ⟨reset, applied⟩ := reset_cases session.exchange
  · apply explained_threw explained
    rw [step, threw]
    rfl
  · rw [Explained, applied] at explained
    have after : (eventOf session (.reset : Call δ)).after.exchange =
        { session.exchange with phase := .idle } := congrArg Prod.snd reset
    rw [after]
    exact explained_unarmed explained (.inl rfl)

theorem step_explained (explained : Explained history session.exchange) (call : Call δ) :
    Explained (history ++ [eventOf session call]) (eventOf session call).after.exchange := by
  cases call with
  | beginPreview diff => exact explained_beginPreview explained diff
  | buildPreview messageId sentAt => exact explained_buildPreview explained messageId sentAt
  | receiveApplyToken token => exact explained_receiveApplyToken explained token
  | buildApply messageId sentAt => exact explained_buildApply explained messageId sentAt
  | ingest payload now => exact explained_ingest explained payload now
  | rebase => exact explained_rebase explained
  | abort => exact explained_abort explained
  | reset => exact explained_reset explained
  | replaceStore store => exact explained_keeps explained ⟨rfl, rfl, rfl⟩ ⟨rfl, rfl, rfl⟩

omit [Double δ] in
theorem settled_ne_apply {result : Except DartError Unit} {envelope : Entries δ} :
    settled result ≠ .apply envelope := by
  cases result with
  | ok => exact nofun
  | error error => exact nofun

/-- Only `buildApply` frames an apply. -/
theorem of_apply {call : Call δ} {envelope : Entries δ}
    (outcome : (eventOf session call).outcome = .apply envelope) :
    ∃ messageId sentAt,
      (session.exchange.buildApply session.store messageId sentAt).1 = .ok envelope := by
  cases call with
  | buildApply messageId sentAt =>
      refine ⟨messageId, sentAt, ?_⟩
      change framed .apply (session.exchange.buildApply session.store messageId sentAt).1 =
        .apply envelope at outcome
      cases built : (session.exchange.buildApply session.store messageId sentAt :
          Except DartError (Entries δ) × ScheduleExchange).1 with
      | error error =>
          rw [built] at outcome
          cases outcome
      | ok found =>
          rw [built] at outcome
          cases outcome
          rfl
  | buildPreview messageId sentAt =>
      change framed .preview (session.exchange.buildPreview messageId sentAt).1 = .apply envelope
        at outcome
      cases built : (session.exchange.buildPreview messageId sentAt :
          Except DartError (Entries δ) × ScheduleExchange).1 with
      | error error =>
          rw [built] at outcome
          cases outcome
      | ok found =>
          rw [built] at outcome
          cases outcome
  | ingest payload now =>
      have silent := (@plain_ingest δ _ session payload now).apply
      rw [Event.isApply, outcome] at silent
      cases silent
  | replaceStore store => cases outcome
  | _ => exact absurd outcome settled_ne_apply

/-- Only an outside replacement and the adoption of a receipt change the store. -/
theorem store_explained (explained : Explained history session.exchange) (call : Call δ)
    (changed : (eventOf session call).after.store ≠ session.store) :
    (∃ outside, call = .replaceStore outside) ∨
      ∃ diff token payload now, Outstanding diff token history ∧ call = .ingest payload now ∧
        Adopts diff payload session.store (eventOf session call).after.store := by
  cases call with
  | replaceStore store => exact .inl ⟨store, rfl⟩
  | ingest payload now =>
      have store : (eventOf session (.ingest payload now)).after.store =
          (session.exchange.ingest session.store payload now).2.2 := rfl
      rw [store] at changed ⊢
      obtain ⟨seen, kept⟩ | ⟨sent, seen, diff, armed, -, adopts⟩ | ⟨seen, _, _, left, -⟩ :=
        ingest_cases session.exchange session.store payload now
      · rw [kept] at changed
        exact absurd rfl changed
      · rw [Explained, sent] at explained
        obtain ⟨other, token, same, outstanding⟩ := explained
        rw [armed] at same
        cases same
        exact .inr ⟨diff, token, payload, now, outstanding, rfl, adopts⟩
      · rw [left] at changed
        exact absurd rfl changed
  | _ => exact absurd rfl changed

end Step

/-! ### Runs -/

section Runs

theorem explained_trace {session : Session} {history : List (Event δ)} {calls : List (Call δ)}
    (explained : Explained history session.exchange) {older newer : List (Event δ)}
    {event : Event δ} (split : trace session calls = older ++ event :: newer) :
    Explained (history ++ older) event.before.exchange ∧
      event = eventOf event.before event.call := by
  induction calls generalizing session history older with
  | nil => exact absurd split (by simp [trace])
  | cons call calls ih =>
      rw [trace] at split
      cases older with
      | nil =>
          obtain ⟨rfl, -⟩ := List.cons.inj split
          rw [List.append_nil]
          exact ⟨explained, rfl⟩
      | cons first older =>
          obtain ⟨rfl, later⟩ := List.cons.inj split
          have next := ih (step_explained explained call) later
          rwa [List.append_assoc, List.singleton_append] at next

omit [Double δ] in
/-- Between two applies the token of the second was received. -/
theorem token_between {diff : ScheduleDiff} {token : DartString}
    {history before after : List (Event δ)} {apply : Event δ}
    (tokened : Tokened diff token history) (split : history = before ++ apply :: after)
    (applied : apply.isApply = true) : ∃ received ∈ after, Receives token received := by
  apply Staged.passed_since tokened split
  · rintro ⟨-, outcome⟩
    rw [Event.isApply, outcome] at applied
    cases applied
  · intro quiet
    rw [quiet.apply] at applied
    cases applied

/-- In every run of the exchange, whatever its calls throw and whoever replaces the store:
an apply is framed after a preview of the same armed proposal and a token received since,
and carries what the preview carried and the token; the exchange changes the store only
by adopting a receipt for the apply that is outstanding; and the token of an apply was
received since the applies before it. -/
theorem exchange_safe (store : DeviceScheduleStore) (calls : List (Call δ))
    (older newer : List (Event δ)) (event : Event δ)
    (split : trace { exchange := create, store } calls = older ++ event :: newer) :
    (∀ envelope, event.outcome = .apply envelope →
      ∃ diff token, Tokened diff token older ∧ Carries diff envelope ∧
        tokenOf envelope = .string token ∧
        ∀ before apply after, older = before ++ apply :: after → apply.isApply = true →
          ∃ received ∈ after, Receives token received) ∧
      (event.after.store ≠ event.before.store →
        (∃ outside, event.call = .replaceStore outside) ∨
          ∃ diff token payload now, Outstanding diff token older ∧
            event.call = .ingest payload now ∧
            Adopts diff payload event.before.store event.after.store) := by
  have start : Explained ([] : List (Event δ)) create := explained_unarmed rfl (.inl rfl)
  obtain ⟨explained, same⟩ := explained_trace start split
  rw [List.nil_append] at explained
  constructor
  · intro envelope outcome
    rw [same] at outcome
    obtain ⟨messageId, sentAt, built⟩ := of_apply outcome
    obtain ⟨diff, token, -, tokened, carries, carried⟩ := apply_explained explained built
    refine ⟨diff, token, tokened, carries, carried, ?_⟩
    intro before apply after earlier applied
    exact token_between tokened earlier applied
  · intro changed
    rw [same] at changed ⊢
    exact store_explained explained event.call changed

/-- One alarm is added. -/
def importedDiff : ScheduleDiff :=
  { expectedRevision := 0, added := [imported (utf16 "e1")], removed := [], changed := []
    unchangedAlarms := [] }

def epoch : DateTime :=
  { microsecondsSinceEpoch := 0, isUtc := true, lower := by decide, upper := by decide }

/-- It is previewed, and applied with the token `t1`. -/
def applyImported : List (Call Empty) :=
  [.beginPreview importedDiff, .buildPreview (utf16 "m1") epoch, .receiveApplyToken (utf16 "t1"),
    .buildApply (utf16 "m2") epoch]

theorem exchange_safe_applyImported : ∃ event envelope,
    (trace { exchange := create, store := .empty } applyImported)[3]? = some event ∧
      event.outcome = .apply envelope ∧ ∃ diff token,
        Tokened diff token ((trace { exchange := create, store := .empty } applyImported).take 3) ∧
        Carries diff envelope ∧ tokenOf envelope = .string token := by
  let events := trace { exchange := create, store := .empty } applyImported
  let armed := eventOf { exchange := create, store := .empty }
    (.beginPreview importedDiff : Call Empty)
  let previewed := eventOf armed.after (.buildPreview (utf16 "m1") epoch : Call Empty)
  let tokened := eventOf previewed.after (.receiveApplyToken (utf16 "t1") : Call Empty)
  let event := eventOf tokened.after (.buildApply (utf16 "m2") epoch : Call Empty)
  have split : events = events.take 3 ++ event :: [] := rfl
  have applied : event.isApply = true := by
    decide +kernel
  rw [Event.isApply] at applied
  cases outcome : event.outcome with
  | apply envelope =>
      obtain ⟨diff, token, tokened, carries, carried, -⟩ :=
        (exchange_safe .empty applyImported _ _ event split).1 envelope outcome
      exact ⟨event, envelope, rfl, outcome, diff, token, tokened, carries, carried⟩
  | _ =>
      rw [outcome] at applied
      cases applied

end Runs

/-! ### Abandoning -/

section Abandoning

/-- The state a run of calls reaches. -/
def reached (session : Session) (calls : List (Call δ)) : Session :=
  calls.foldl (fun session call => (step session call).2) session

/-- The exchange can be abandoned: `abort` succeeds, leaves the store and discards the
proposal with its token, and any diff of the store's revision can be previewed next. -/
structure Abandons (δ : Type) [Double δ] (session : Session) : Prop where
  done : (step session (.abort : Call δ)).1 = .done
  store : (step session (.abort : Call δ)).2.store = session.store
  armed : (step session (.abort : Call δ)).2.exchange.armed = none
  token : (step session (.abort : Call δ)).2.exchange.boundToken = none
  digest : (step session (.abort : Call δ)).2.exchange.boundDigest = none
  begins : ∀ diff : ScheduleDiff, diff.expectedRevision = session.store.knownRevision →
    (step (step session (.abort : Call δ)).2 (.beginPreview diff : Call δ)).1 = .done

theorem explained_reached {session : Session} {history : List (Event δ)}
    (explained : Explained history session.exchange) (calls : List (Call δ)) :
    ∃ history : List (Event δ), Explained history (reached session calls).exchange := by
  induction calls generalizing session history with
  | nil => exact ⟨history, explained⟩
  | cons call rest ih => exact ih (step_explained explained call)

/-- What `beginPreview` accepts. -/
theorem beginPreview_ok {exchange : ScheduleExchange} {store : DeviceScheduleStore}
    {diff : ScheduleDiff} (idle : exchange.phase = .idle) (unarmed : exchange.armed = none)
    (current : diff.expectedRevision = store.knownRevision) :
    ∃ bound, exchange.beginPreview δ store diff =
      (.ok (), { exchange with armed := some diff, boundDigest := some bound }) := by
  obtain ⟨bound, found⟩ := @digest_isSome δ _ diff
  have free : ¬ exchange.armed.isSome = true := by
    rw [unarmed]
    decide
  rw [beginPreview, if_neg (not_not.mpr idle), if_neg free, if_neg (not_not.mpr current), found]
  exact ⟨bound, rfl⟩

/-- An armed proposal whose preview has not been framed cannot be abandoned, nor replaced. -/
theorem stuck_of_idle {session : Session} {diff : ScheduleDiff}
    (armed : session.exchange.armed = some diff) (idle : session.exchange.phase = .idle)
    (next : ScheduleDiff) :
    (step session (.abort : Call δ)).1 = .threw (.stateError "nothing to abort (idle)") ∧
      (step session (.beginPreview next : Call δ)).1 =
        .threw (.stateError "a proposal is already armed; abort first") := by
  constructor
  · change settled session.exchange.abort.1 = _
    rw [abort, if_pos (.inl idle), idle]
    rfl
  · have busy : session.exchange.armed.isSome = true := by
      rw [armed]
      rfl
    change settled (session.exchange.beginPreview δ session.store next).1 = _
    rw [beginPreview, if_neg (not_not.mpr idle), if_pos busy]
    rfl

theorem buildPreview_armed (exchange : ScheduleExchange) (messageId : DartString)
    (sentAt : DateTime) : (exchange.buildPreview messageId sentAt :
      Except DartError (Entries δ) × ScheduleExchange).2.armed = exchange.armed := by
  unfold buildPreview
  split
  · rfl
  split
  · rfl
  split <;> rfl

/-- In every state a run of calls reaches, whatever they threw: an armed proposal can be
abandoned if and only if its preview has been framed. -/
theorem abandons_iff (store : DeviceScheduleStore) (calls : List (Call δ)) {diff : ScheduleDiff}
    (armed : (reached { exchange := create, store } calls).exchange.armed = some diff) :
    Abandons δ (reached { exchange := create, store } calls) ↔
      (reached { exchange := create, store } calls).exchange.phase ≠ .idle := by
  have start : Explained ([] : List (Event δ)) create := explained_unarmed rfl (.inl rfl)
  obtain ⟨history, explained⟩ := @explained_reached δ _ { exchange := create, store } [] start calls
  generalize reached { exchange := create, store } calls = session at armed explained ⊢
  constructor
  · intro abandons idle
    have done := abandons.done
    rw [(stuck_of_idle armed idle diff).1] at done
    cases done
  · intro framed
    have active : ¬ (session.exchange.phase = .idle ∨ session.exchange.phase = .applied) := by
      rintro (idle | applied)
      · exact framed idle
      · rw [Explained, applied] at explained
        rw [show session.exchange.armed = none from explained] at armed
        cases armed
    have aborted : session.exchange.abort =
        (.ok (), { session.exchange.disarm with conflictRevision := none, phase := .idle }) := by
      rw [abort, if_neg active]
    have result : step session (.abort : Call δ) = (.done,
        { session with exchange := { session.exchange.disarm with
            conflictRevision := none, phase := .idle } }) := by
      change (settled session.exchange.abort.1,
        { session with exchange := session.exchange.abort.2 }) = _
      rw [aborted]
      rfl
    constructor
    · rw [result]
    · rw [result]
    · rw [result]
      rfl
    · rw [result]
      rfl
    · rw [result]
      rfl
    · intro next current
      rw [result]
      obtain ⟨bound, accepted⟩ := @beginPreview_ok δ _ { session.exchange.disarm with
        conflictRevision := none, phase := .idle } session.store next rfl rfl current
      have begins (s : Session) : (step s (.beginPreview next : Call δ)).1 =
          settled (s.exchange.beginPreview δ s.store next).1 := rfl
      rw [begins, accepted]
      rfl

def emptyDiff : ScheduleDiff :=
  { expectedRevision := 0, added := [], removed := [], changed := [], unchangedAlarms := [] }

/-- The empty schedule is armed, and its preview asked for under that message id. -/
def previewEmpty (messageId : DartString) : Session :=
  reached { exchange := create, store := .empty }
    [(.beginPreview emptyDiff : Call Empty), .buildPreview messageId epoch]

theorem armed_previewEmpty (messageId : DartString) :
    (previewEmpty messageId).exchange.armed = some emptyDiff := by
  obtain ⟨bound, begun⟩ := @beginPreview_ok Empty _ create .empty emptyDiff rfl rfl rfl
  have reaches : (previewEmpty messageId).exchange =
      (buildPreview (create.beginPreview Empty .empty emptyDiff).2 messageId epoch :
        Except DartError (Entries Empty) × ScheduleExchange).2 := rfl
  rw [reaches, buildPreview_armed, begun]

theorem abandons_previewed : Abandons Empty (previewEmpty (utf16 "m1")) := by
  have armed := armed_previewEmpty (utf16 "m1")
  have framed : (previewEmpty (utf16 "m1")).exchange.phase ≠ .idle := by
    decide +kernel
  rw [previewEmpty] at armed framed ⊢
  exact (abandons_iff .empty _ armed).mpr framed

/-- A proposal whose preview was refused for its message id: it is still armed, `abort`
finds nothing to abort, and the next proposal is refused with the advice to abort. -/
theorem refused_preview_is_stuck :
    (previewEmpty []).exchange.armed = some emptyDiff ∧ ¬ Abandons Empty (previewEmpty []) ∧
      (step (previewEmpty []) (.abort : Call Empty)).1 =
        .threw (.stateError "nothing to abort (idle)") ∧
      (step (previewEmpty []) (.beginPreview emptyDiff : Call Empty)).1 =
        .threw (.stateError "a proposal is already armed; abort first") := by
  have idle : (previewEmpty []).exchange.phase = .idle := by
    decide +kernel
  have stuck := @stuck_of_idle Empty _ _ _ (armed_previewEmpty []) idle emptyDiff
  refine ⟨armed_previewEmpty [], ?_, stuck⟩
  intro abandons
  have done := abandons.done
  rw [stuck.1] at done
  cases done

end Abandoning

end ScheduleExchange

end DawnDock.App
