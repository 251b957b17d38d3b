import DawnDock.App.ExchangeSafety
import DawnDock.Protocol.FrameParity

/-!
The requests of the exchange on the wire (`requests_accepted`).

A value that the parser can read is one of a document within its limits (`IsWire`); the envelope
of a request is put together from such values.
-/

namespace DawnDock.App

variable {δ : Type}

/-! ### Values of documents -/

/-- The value is decoded from a document that the parser takes, of at most that many values. -/
def IsWire (depth count : Nat) (value : Value δ) : Prop :=
  ∃ document, decoded document = value ∧ Json.NestsWithin depth document ∧ AllWithin document ∧
    document.count ≤ count

section Wire

variable {depth count : Nat}

theorem wire_null : IsWire (depth + 1) 1 (.null : Value δ) := by
  refine ⟨.null, rfl, trivial, ?_, Nat.le_refl _⟩
  intro value mem
  rw [Json.values, List.mem_singleton] at mem
  rw [mem]
  trivial

theorem wire_boolean (value : Bool) : IsWire (depth + 1) 1 (.boolean value : Value δ) := by
  refine ⟨.boolean value, rfl, trivial, ?_, Nat.le_refl _⟩
  intro value mem
  rw [Json.values, List.mem_singleton] at mem
  rw [mem]
  trivial

theorem wire_int (value : Int64) : IsWire (depth + 1) 1 (.number (.int value) : Value δ) := by
  refine ⟨.number value.toInt, ?_, trivial, ?_, Nat.le_refl _⟩
  · rw [decoded, Json.map, decodedNumber, Int64.ofInt_toInt]
  · intro other mem
    rw [Json.values, List.mem_singleton] at mem
    rw [mem]
    exact ⟨value.le_toInt, value.toInt_lt⟩

theorem wire_string {text : DartString} (wellFormed : IsWellFormed text)
    (short : utf8Length text ≤ kJsonMaximumStringBytes) :
    IsWire (depth + 1) 1 (.string text : Value δ) := by
  obtain ⟨chars, rfl⟩ := wellFormed
  rw [utf8Length_encode] at short
  exact ⟨.string chars, rfl, trivial, allWithin_string short, Nat.le_refl _⟩

theorem wire_array {elements : List (Value δ)}
    (each : ∀ value ∈ elements, IsWire depth count value) :
    IsWire (depth + 1) (elements.length * count + 1) (.array elements) := by
  have documents : ∃ documents : List Json.Document, documents.map decoded = elements ∧
      (∀ document ∈ documents, Json.NestsWithin depth document ∧ AllWithin document) ∧
      (documents.map Json.count).sum ≤ elements.length * count := by
    induction elements with
    | nil => exact ⟨[], rfl, List.forall_mem_nil _, Nat.zero_le _⟩
    | cons value elements ih =>
        rw [List.forall_mem_cons] at each
        obtain ⟨⟨document, same, nests, within, bound⟩, others⟩ := each
        obtain ⟨documents, rest, all, bounds⟩ := ih others
        refine ⟨document :: documents, by rw [List.map_cons, same, rest],
          List.forall_mem_cons.mpr ⟨⟨nests, within⟩, all⟩, ?_⟩
        rw [List.map_cons, List.sum_cons, List.length_cons, Nat.succ_mul]
        omega
  obtain ⟨documents, same, all, bound⟩ := documents
  refine ⟨.array documents, by rw [decoded_array, same], fun document mem => (all document mem).1,
    allWithin_array.mpr fun document mem => (all document mem).2, ?_⟩
  rw [count_array]
  omega

/-- An entry with that key, of at most that many values. -/
def WireEntry (depth : Nat) (entry : DartString × Value δ) (field : String × Nat) : Prop :=
  entry.1 = utf16 field.1 ∧ IsWire depth field.2 entry.2

/-- An object, by the names of its fields. -/
theorem wire_object {entries : Entries δ} {fields : List (String × Nat)}
    (each : List.Forall₂ (WireEntry depth) entries fields) (distinct : (fields.map Prod.fst).Nodup)
    (short : ∀ field ∈ fields, (utf8 field.1).length ≤ kJsonMaximumStringBytes) :
    ∃ members : List (List Char × Json.Document), members.map decodedEntry = entries ∧
      members.map Prod.fst = fields.map (·.1.toList) ∧
      Json.NestsWithin (depth + 1) (.object members) ∧ AllWithin (.object members) ∧
      (Json.object members).count ≤ (fields.map Prod.snd).sum + 1 := by
  have documents : ∃ members : List (List Char × Json.Document),
      members.map decodedEntry = entries ∧
      members.map Prod.fst = fields.map (·.1.toList) ∧
      (∀ member ∈ members, Json.NestsWithin depth member.2 ∧ MemberWithin member) ∧
      (members.map fun member => member.2.count).sum ≤ (fields.map Prod.snd).sum := by
    clear distinct
    induction each with
    | nil => exact ⟨[], rfl, rfl, List.forall_mem_nil _, Nat.le_refl _⟩
    | @cons entry field entries fields first others ih =>
        rw [List.forall_mem_cons] at short
        obtain ⟨key, document, same, nests, within, bound⟩ := first
        obtain ⟨members, rest, keys, all, bounds⟩ := ih short.2
        have length := short.1
        rw [utf8_eq] at length
        refine ⟨(field.1.toList, document) :: members, ?_, ?_,
          List.forall_mem_cons.mpr ⟨⟨nests, length, within⟩, all⟩, ?_⟩
        · rw [List.map_cons, rest, decodedEntry, same]
          exact congrArg (· :: entries) (Prod.ext key.symm rfl)
        · rw [List.map_cons, List.map_cons, keys]
        · rw [List.map_cons, List.map_cons, List.sum_cons, List.sum_cons]
          exact Nat.add_le_add bound bounds
  obtain ⟨members, same, keys, all, bound⟩ := documents
  have distinctKeys : ((members.map representMember).map Prod.fst).Nodup := by
    have whole : (members.map representMember).map Prod.fst =
        fields.map fun field => utf8 field.1 := by
      rw [List.map_map]
      have encoded : (Prod.fst ∘ representMember : List Char × Json.Document → Text) =
          Utf8.encode ∘ Prod.fst := rfl
      rw [encoded, ← List.map_map, keys, List.map_map]
      exact List.map_congr_left fun field _ => (utf8_eq field.1).symm
    rw [whole]
    have names : (fun field : String × Nat => utf8 field.1) = utf8 ∘ Prod.fst := rfl
    rw [names, ← List.map_map]
    exact distinct.map fun _ _ => utf8_inj.mp
  refine ⟨members, same, keys, fun member mem => (all member mem).1,
    allWithin_object.mpr ⟨distinctKeys, fun member mem => (all member mem).2⟩, ?_⟩
  rw [count_object]
  omega

theorem isWire_object {entries : Entries δ} {fields : List (String × Nat)}
    (each : List.Forall₂ (WireEntry depth) entries fields) (distinct : (fields.map Prod.fst).Nodup)
    (short : ∀ field ∈ fields, (utf8 field.1).length ≤ kJsonMaximumStringBytes) :
    IsWire (depth + 1) ((fields.map Prod.snd).sum + 1) (.object entries) := by
  obtain ⟨members, same, -, nests, within, bound⟩ := wire_object each distinct short
  exact ⟨.object members, by rw [decoded_object, same], nests, within, bound⟩

theorem IsWire.mono {value : Value δ} {more : Nat} (wire : IsWire depth count value)
    (le : count ≤ more) : IsWire depth more value := by
  obtain ⟨document, same, nests, within, bound⟩ := wire
  exact ⟨document, same, nests, within, Nat.le_trans bound le⟩

/-- An ASCII text has a byte for each of its units. -/
theorem wellFormed_ascii {units : DartString} (narrow : ∀ u ∈ units, u.toNat < 128) :
    IsWellFormed units ∧ utf8Length units = units.length := by
  have encoded : EncodesAs units (units.map fun u => UInt8.ofNat u.toNat) := by
    induction units with
    | nil => exact .nil
    | cons u units ih =>
        rw [List.forall_mem_cons] at narrow
        have scalar : Utf8.Scalar u.toNat := .inl (Nat.lt_trans narrow.1 (by decide))
        obtain ⟨c, value⟩ := Utf8.exists_char scalar
        have first : EncodesAs [u] [UInt8.ofNat u.toNat] := by
          refine ⟨[c], ?_, ?_⟩
          · rw [Utf16.encode_cons, value, Utf16.ofRune_ascii narrow.1, UInt16.ofNat_toNat]
            rfl
          · rw [Utf8.encode_cons, Utf16.utf8_ascii (value ▸ narrow.1), value]
            rfl
        exact first.append (ih narrow.2)
  exact ⟨encoded.wellFormed, by rw [encoded.size, List.length_map]⟩

theorem wire_ascii {text : DartString} (narrow : ∀ u ∈ text, u.toNat < 128)
    (short : text.length ≤ kJsonMaximumStringBytes) :
    IsWire (depth + 1) 1 (.string text : Value δ) := by
  obtain ⟨wellFormed, size⟩ := wellFormed_ascii narrow
  exact wire_string wellFormed (size.trans_le short)

end Wire

/-! ### Drafts -/

namespace AlarmDraft

/-- The texts of the draft that come from outside hold no unpaired surrogate. -/
structure TextsWellFormed (draft : AlarmDraft) : Prop where
  label : IsWellFormed draft.label
  timezone : IsWellFormed draft.timezone
  sound : IsWellFormed draft.sound
  sourceEventId : ∀ provenance ∈ draft.provenance, IsWellFormed provenance.sourceEventId

variable {draft : AlarmDraft} {depth : Nat}

theorem wire_eventId (texts : draft.TextsWellFormed) (fits : draft.EventIdFits) :
    IsWire (depth + 1) 1 (draft.wireEventId : Value δ) := by
  unfold wireEventId
  cases carried : draft.provenance with
  | none => exact wire_null
  | some provenance =>
      exact wire_string (texts.sourceEventId provenance carried)
        (Nat.le_trans (fits provenance carried) (by decide))

theorem length_localTime : draft.localTime.length = 5 := by
  have valid := draft.localTime_valid
  rw [localTimePattern, Bool.or_eq_true] at valid
  rcases valid with early | late
  · exact length_of_matchesEach early
  · exact length_of_matchesEach late

theorem length_id : draft.id.length ≤ 64 := by
  have valid := draft.checks.id
  cases id : draft.id with
  | nil => exact Nat.zero_le _
  | cons first rest =>
      rw [id, alarmIdPattern, Bool.and_eq_true, Bool.and_eq_true, decide_eq_true_eq] at valid
      exact Nat.succ_le_succ valid.1.2

/-- The fields of an alarm, and how many values each has at most. -/
def wireFields : List (String × Nat) :=
  [("id", 1), ("label", 1), ("enabled", 1), ("localTime", 1), ("days", 8), ("timezone", 1),
    ("snoozeMinutes", 1), ("volume", 1), ("sound", 1), ("source", 1), ("sourceEventId", 1)]

theorem wire_alarm (texts : draft.TextsWellFormed) (fits : draft.EventIdFits) :
    IsWire (depth + 3) 19 (draft.toWireAlarm : Value δ) := by
  have checks := draft.checks
  have days : IsWire (depth + 2) 8
      (.array (draft.toWireDays.map fun day => .number (.int day)) : Value δ) := by
    have each : ∀ value ∈ draft.toWireDays.map fun day => (.number (.int day) : Value δ),
        IsWire (depth + 1) 1 value := by
      rw [List.forall_mem_map]
      exact fun day _ => wire_int day
    refine (wire_array each).mono ?_
    have count := checks.daysCount
    rw [List.length_map, draft.toWireDays_length]
    omega
  have source : IsWire (depth + 2) 1 (.string draft.source.name : Value δ) := by
    cases draft.source with
    | manual => exact wire_string ⟨_, rfl⟩ (by decide)
    | ics => exact wire_string ⟨_, rfl⟩ (by decide)
  have fields : List.Forall₂ (WireEntry (depth + 2))
      (wireEntries (.string draft.id) (.string draft.label) (.boolean draft.enabled)
        (.string draft.localTime) (.array (draft.toWireDays.map fun day => .number (.int day)))
        (.string draft.timezone) (.number (.int draft.snoozeMinutes))
        (.number (.int draft.volume)) (.string draft.sound) (.string draft.source.name)
        (draft.wireEventId : Value δ)) wireFields :=
    .cons ⟨rfl, wire_ascii (narrow_alarmIdPattern checks.id)
      (Nat.le_trans length_id (by decide))⟩ <|
    .cons ⟨rfl, wire_string texts.label (Nat.le_trans checks.label.2 (by decide))⟩ <|
    .cons ⟨rfl, wire_boolean _⟩ <|
    .cons ⟨rfl, wire_ascii (narrow_localTime draft.localTime_valid)
      (length_localTime.trans_le (by decide))⟩ <|
    .cons ⟨rfl, days⟩ <|
    .cons ⟨rfl, wire_string texts.timezone (Nat.le_trans checks.timezone.2 (by decide))⟩ <|
    .cons ⟨rfl, wire_int _⟩ <| .cons ⟨rfl, wire_int _⟩ <|
    .cons ⟨rfl, wire_string texts.sound (Nat.le_trans checks.sound.2 (by decide))⟩ <|
    .cons ⟨rfl, source⟩ <| .cons ⟨rfl, wire_eventId texts fits⟩ .nil
  have short : ∀ field ∈ wireFields, (utf8 field.1).length ≤ kJsonMaximumStringBytes := by
    decide
  exact isWire_object fields (by decide) short

end AlarmDraft

/-! ### Requests -/

section Requests

variable [Double δ] {type messageId sentAtText : DartString} {revision : Int64} {body : Entries δ}

omit [Double δ] in
/-- The alarms of a proposal that the gate has accepted. -/
theorem wire_alarms {diff : ScheduleDiff} {depth : Nat} (alarms : index body (utf16 "alarms") =
      .array (diff.toWirePreviewBody : List (Value δ)))
    (accepted : validateScheduleBody body = .accepted)
    (texts : ∀ draft ∈ diff.proposedOrder, draft.TextsWellFormed) :
    IsWire (depth + 4) 609 (.array diff.toWirePreviewBody : Value δ) := by
  rw [validateScheduleBody, alarms] at accepted
  dsimp only at accepted
  split at accepted
  · cases accepted
  rename_i few
  split at accepted
  · rename_i valid
    have fits : ∀ draft ∈ diff.proposedOrder, draft.EventIdFits := validateAlarms_wire.mp valid
    have each : ∀ value ∈ (diff.toWirePreviewBody : List (Value δ)),
        IsWire (depth + 3) 19 value := by
      rw [ScheduleDiff.toWirePreviewBody, List.forall_mem_map]
      exact fun draft mem => AlarmDraft.wire_alarm (texts draft mem) (fits draft mem)
    refine (wire_array each).mono ?_
    have bound : (diff.toWirePreviewBody : List (Value δ)).length ≤ 32 := Nat.not_lt.mp few
    omega
  · rename_i code refused
    exact absurd accepted (by simpa using refused)

/-- The bytes that the app writes for the envelope: the firmware parses them to the document
that the envelope is, and accepts it. -/
def IsAccepted (envelope : Entries δ) : Prop :=
  ∃ frame bytes document, jsonEncode (.object envelope) = some frame ∧ EncodesAs frame bytes ∧
    (decoded document : Value δ) = .object envelope ∧
    parseJson bytes = .ok (represent document) ∧
    validateFixture (represent document) bytes.length = utf8 "accepted"

/-- An envelope that the app has accepted, with the body of a document. -/
theorem envelope_read {count : Nat} {after : Option (Finset DartString)}
    (schedule : type ∈ kRevisionRequiredTypes) (nonneg : 0 ≤ revision)
    (accepted : validateContractMessage
      (envelopeEntries type messageId sentAtText revision body) none = some (.accepted, after))
    (wire : IsWire 15 count (.object body : Value δ)) (few : count ≤ 8000) :
    IsAccepted (envelopeEntries type messageId sentAtText revision body) := by
  obtain ⟨-, -, ⟨id, foundId, idMatches⟩, ⟨sentAt, foundAt, atMatches⟩, -⟩ :=
    of_envelopeCode (of_accepted accepted).1
  cases foundId
  cases foundAt
  have typed : IsWire 15 1 (.string type : Value δ) := by
    rw [kRevisionRequiredTypes, List.mem_cons, List.mem_singleton] at schedule
    rcases schedule with rfl | rfl
    · exact wire_string ⟨_, rfl⟩ (by decide)
    · exact wire_string ⟨_, rfl⟩ (by decide)
  have idShort : messageId.length ≤ kJsonMaximumStringBytes := by
    rw [messageIdPattern, Bool.and_eq_true, Bool.and_eq_true, decide_eq_true_eq,
      decide_eq_true_eq] at idMatches
    exact Nat.le_trans idMatches.1.2 (by decide)
  have atShort : sentAtText.length ≤ kJsonMaximumStringBytes :=
    (length_of_matchesEach atMatches).trans_le (by decide)
  have fields : List.Forall₂ (WireEntry 15)
      (envelopeEntries type messageId sentAtText revision body)
      [("protocol", 1), ("messageId", 1), ("sentAt", 1), ("type", 1), ("expectedRevision", 1),
        ("body", count)] :=
    .cons ⟨rfl, wire_string ⟨_, rfl⟩ (by decide)⟩ <|
    .cons ⟨rfl, wire_ascii (narrow_messageIdPattern idMatches) idShort⟩ <|
    .cons ⟨rfl, wire_ascii (narrow_sentAt atMatches) atShort⟩ <|
    .cons ⟨rfl, typed⟩ <| .cons ⟨rfl, wire_int _⟩ <| .cons ⟨rfl, wire⟩ .nil
  have short : ∀ name ∈ ["protocol", "messageId", "sentAt", "type", "expectedRevision", "body"],
      (utf8 name).length ≤ kJsonMaximumStringBytes := by
    decide
  obtain ⟨members, same, keys, nests, within, bound⟩ := wire_object fields (by decide : List.Nodup
    ["protocol", "messageId", "sentAt", "type", "expectedRevision", "body"])
    fun field mem => short field.1 (List.mem_map_of_mem mem)
  have plain : member? members "_fixtureMeta" = none := by
    rw [member?, Option.map_eq_none_iff, List.find?_eq_none]
    intro member mem same
    have absent : "_fixtureMeta".toList ∉ ["protocol", "messageId", "sentAt", "type",
        "expectedRevision", "body"].map String.toList := by
      decide
    have named : member.1 ∈ members.map Prod.fst := List.mem_map_of_mem mem
    rw [keys, beq_iff_eq.mp same] at named
    exact absent named
  have revisionTyped : RevisionTyped (members.map decodedEntry : Entries δ) := by
    rw [same]
    rintro _ ⟨⟩
    rw [Int64.le_iff_toInt_le] at nonneg
    exact nonneg
  obtain ⟨frame, bytes, code, encoded, encodes, settled, fits, long⟩ :=
    frame_codes (δ := δ) nests (Nat.le_trans bound (by simp; omega)) within plain revisionTyped
  rw [same] at encoded settled
  rw [accepted] at settled
  cases settled
  obtain ⟨parsed, name⟩ := fits (Nat.not_lt.mp fun more => (long more).1 rfl)
  exact ⟨frame, bytes, .object members, encoded, encodes, by rw [decoded_object, same], parsed,
    name⟩

theorem accepted_of_buildEnvelope {sentAt : DateTime} {envelope : Entries δ}
    (built : buildEnvelope type messageId sentAt revision body = .ok envelope) :
    ∃ sentAtText after, envelope = envelopeEntries type messageId sentAtText revision body ∧
      validateContractMessage envelope none = some (.accepted, after) := by
  unfold buildEnvelope at built
  split at built
  · cases built
  obtain ⟨sentAtText, -, built⟩ := Collect.of_bind_eq_ok built
  dsimp only at built
  split at built
  · cases built
  rename_i code after settled
  split at built
  · cases built
  rename_i accepted
  cases built
  rw [not_not.mp accepted] at settled
  exact ⟨sentAtText, after, rfl, settled⟩

end Requests

/-! ### Runs -/

namespace ScheduleExchange

section Runs

variable [Double δ]

/-- The armed proposal is one of these, and a bound token has its pattern. -/
structure Bound (proposals : ScheduleDiff → Prop) (exchange : ScheduleExchange) : Prop where
  armed : ∀ diff, exchange.armed = some diff → proposals diff
  token : ∀ token, exchange.boundToken = some token → applyTokenPattern token = true

variable {proposals : ScheduleDiff → Prop} {exchange : ScheduleExchange}

omit [Double δ] in
theorem Bound.keeps {after : ScheduleExchange} (bound : Bound proposals exchange)
    (armed : after.armed = exchange.armed ∨ after.armed = none)
    (token : after.boundToken = exchange.boundToken ∨ after.boundToken = none) :
    Bound proposals after where
  armed diff held := by
    rcases armed with same | gone
    · exact bound.armed diff (same ▸ held)
    · rw [gone] at held
      cases held
  token text held := by
    rcases token with same | gone
    · exact bound.token text (same ▸ held)
    · rw [gone] at held
      cases held

/-- A call keeps that, if it begins one of the proposals. -/
theorem step_bound {session : Session} (bound : Bound proposals session.exchange) (call : Call δ)
    (proposed : ∀ diff, call = .beginPreview diff → proposals diff) :
    Bound proposals (step session call).2.exchange := by
  cases call with
  | beginPreview diff =>
      change Bound proposals (session.exchange.beginPreview δ session.store diff).2
      obtain ⟨error, failed⟩ | ⟨digest, begun, -⟩ :=
        beginPreview_cases (δ := δ) session.exchange session.store diff
      · rw [failed]
        exact bound
      · rw [begun]
        refine ⟨fun armed held => ?_, bound.token⟩
        cases held
        exact proposed diff rfl
  | buildPreview messageId sentAt =>
      change Bound proposals (session.exchange.buildPreview messageId sentAt :
        Except DartError (Entries δ) × ScheduleExchange).2
      obtain ⟨error, failed⟩ | ⟨diff, envelope, built, -⟩ :=
        buildPreview_cases (δ := δ) session.exchange messageId sentAt
      · rw [failed]
        exact bound
      · rw [built]
        exact bound.keeps (.inl rfl) (.inl rfl)
  | receiveApplyToken token =>
      change Bound proposals (session.exchange.receiveApplyToken token).2
      unfold receiveApplyToken
      split
      · exact bound
      split
      · exact bound
      rename_i matching
      refine ⟨bound.armed, fun text held => ?_⟩
      cases held
      rwa [Bool.not_eq_true, Bool.not_eq_false'] at matching
  | buildApply messageId sentAt =>
      change Bound proposals (session.exchange.buildApply session.store messageId sentAt :
        Except DartError (Entries δ) × ScheduleExchange).2
      obtain ⟨error, failed⟩ | ⟨diff, envelope, built, -⟩ :=
        buildApply_cases (δ := δ) session.exchange session.store messageId sentAt
      · rw [failed]
        exact bound
      · rw [built]
        exact bound.keeps (.inl rfl) (.inl rfl)
  | ingest payload now =>
      change Bound proposals (session.exchange.ingest session.store payload now).2.1
      obtain ⟨seen, kept⟩ | ⟨-, seen, diff, -, left, -⟩ | ⟨seen, _, _, left, -⟩ :=
        ingest_cases session.exchange session.store payload now
      · rw [kept]
        exact bound.keeps (.inl rfl) (.inl rfl)
      · rw [left]
        exact bound.keeps (.inr rfl) (.inr rfl)
      · rw [left]
        exact bound.keeps (.inr rfl) (.inr rfl)
  | rebase =>
      change Bound proposals (session.exchange.rebase session.store).2
      obtain ⟨error, failed⟩ | ⟨rebased, -⟩ := rebase_cases session.exchange session.store
      · rw [failed]
        exact bound
      · rw [rebased]
        exact bound.keeps (.inl rfl) (.inl rfl)
  | abort =>
      change Bound proposals session.exchange.abort.2
      obtain ⟨error, failed⟩ | aborted := abort_cases session.exchange
      · rw [failed]
        exact bound
      · rw [aborted]
        exact bound.keeps (.inr rfl) (.inr rfl)
  | reset =>
      change Bound proposals session.exchange.reset.2
      obtain ⟨error, failed⟩ | ⟨reset, -⟩ := reset_cases session.exchange
      · rw [failed]
        exact bound
      · rw [reset]
        exact bound.keeps (.inl rfl) (.inl rfl)
  | replaceStore store => exact bound

theorem trace_bound {session : Session} (bound : Bound proposals session.exchange)
    {calls : List (Call δ)} (proposed : ∀ diff, .beginPreview diff ∈ calls → proposals diff)
    {event : Event δ} (mem : event ∈ trace session calls) :
    Bound proposals event.before.exchange ∧ event = eventOf event.before event.call := by
  induction calls generalizing session with
  | nil => cases mem
  | cons call calls ih =>
      rcases List.mem_cons.mp mem with rfl | later
      · exact ⟨bound, rfl⟩
      · have first (diff : ScheduleDiff) (same : call = .beginPreview diff) : proposals diff :=
          proposed diff (same ▸ List.mem_cons_self)
        exact ih (step_bound bound call first)
          (fun diff listed => proposed diff (List.mem_cons_of_mem _ listed)) later

theorem of_buildPreview {messageId : DartString} {sentAt : DateTime} {envelope : Entries δ}
    (built : (exchange.buildPreview messageId sentAt).1 = .ok envelope) :
    ∃ diff, exchange.armed = some diff ∧
      buildEnvelope (utf16 "schedule.preview") messageId sentAt diff.expectedRevision
        [(utf16 "alarms", .array diff.toWirePreviewBody)] = .ok envelope := by
  unfold buildPreview at built
  split at built
  · cases built
  rename_i diff armed
  split at built
  · cases built
  split at built
  · cases built
  rename_i framed
  cases built
  exact ⟨diff, armed, framed⟩

theorem of_buildApply {store : DeviceScheduleStore} {messageId : DartString} {sentAt : DateTime}
    {envelope : Entries δ} (built : (exchange.buildApply store messageId sentAt).1 = .ok envelope) :
    ∃ diff, exchange.armed = some diff ∧
      buildEnvelope (utf16 "schedule.apply") messageId sentAt diff.expectedRevision
        (applyBody exchange.boundToken diff.toWirePreviewBody) = .ok envelope := by
  unfold buildApply at built
  split at built
  · cases built
  rename_i diff armed
  split at built
  · cases built
  split at built
  · cases built
  split at built
  · cases built
  split at built
  · cases built
  rename_i framed
  cases built
  exact ⟨diff, armed, framed⟩

/-- Only `buildPreview` frames a preview. -/
theorem of_preview {session : Session} {call : Call δ} {envelope : Entries δ}
    (outcome : (eventOf session call).outcome = .preview envelope) :
    ∃ messageId sentAt, (session.exchange.buildPreview messageId sentAt).1 = .ok envelope := by
  have other {result : Except DartError Unit} : settled result ≠ .preview envelope := by
    intro same
    cases result with
    | ok => cases same
    | error error => cases same
  cases call with
  | buildPreview messageId sentAt =>
      refine ⟨messageId, sentAt, ?_⟩
      change framed .preview (session.exchange.buildPreview messageId sentAt).1 =
        .preview envelope at outcome
      cases built : (session.exchange.buildPreview messageId sentAt :
          Except DartError (Entries δ) × ScheduleExchange).1 with
      | error error =>
          rw [built] at outcome
          cases outcome
      | ok found =>
          rw [built] at outcome
          cases outcome
          rfl
  | buildApply messageId sentAt =>
      change framed .apply (session.exchange.buildApply session.store messageId sentAt).1 =
        .preview envelope at outcome
      cases built : (session.exchange.buildApply session.store messageId sentAt :
          Except DartError (Entries δ) × ScheduleExchange).1 with
      | error error =>
          rw [built] at outcome
          cases outcome
      | ok found =>
          rw [built] at outcome
          cases outcome
  | ingest payload now =>
      have silent := (@plain_ingest δ _ session payload now).preview
      rw [Event.isPreview, outcome] at silent
      cases silent
  | replaceStore store => cases outcome
  | _ => exact absurd outcome other

/-- What can be sent: a revision that is one, and texts without unpaired surrogates. -/
def Sendable (diff : ScheduleDiff) : Prop :=
  0 ≤ diff.expectedRevision ∧ ∀ draft ∈ diff.proposedOrder, draft.TextsWellFormed

theorem preview_accepted (bound : Bound Sendable exchange) {messageId : DartString}
    {sentAt : DateTime} {envelope : Entries δ}
    (built : (exchange.buildPreview messageId sentAt).1 = .ok envelope) : IsAccepted envelope := by
  obtain ⟨diff, armed, framed⟩ := of_buildPreview built
  obtain ⟨nonneg, texts⟩ := bound.armed diff armed
  obtain ⟨sentAtText, after, rfl, accepted⟩ := accepted_of_buildEnvelope framed
  have valid : validateScheduleBody [(utf16 "alarms", .array diff.toWirePreviewBody)] =
      .accepted := validateBody_of_accepted accepted
  have alarms : IsWire 14 609 (.array diff.toWirePreviewBody : Value δ) :=
    wire_alarms rfl valid texts
  have entries : List.Forall₂ (WireEntry 14)
      [(utf16 "alarms", (.array diff.toWirePreviewBody : Value δ))] [("alarms", 609)] :=
    .cons ⟨rfl, alarms⟩ .nil
  have body : IsWire 15 610 (.object _ : Value δ) :=
    isWire_object entries (by decide) (by decide)
  exact envelope_read (by decide) nonneg accepted body (by decide)

theorem apply_accepted (bound : Bound Sendable exchange) {store : DeviceScheduleStore}
    {messageId : DartString} {sentAt : DateTime} {envelope : Entries δ}
    (built : (exchange.buildApply store messageId sentAt).1 = .ok envelope) :
    IsAccepted envelope := by
  obtain ⟨diff, armed, framed⟩ := of_buildApply built
  obtain ⟨nonneg, texts⟩ := bound.armed diff armed
  obtain ⟨sentAtText, after, rfl, accepted⟩ := accepted_of_buildEnvelope framed
  have valid : validateScheduleBody (applyBody exchange.boundToken diff.toWirePreviewBody) =
      .accepted := validateBody_of_accepted accepted
  have alarms : IsWire 14 609 (.array diff.toWirePreviewBody : Value δ) :=
    wire_alarms rfl valid texts
  have token : ∃ value : Value δ, IsWire 14 1 value ∧
      applyBody exchange.boundToken diff.toWirePreviewBody =
        [(utf16 "applyToken", value), (utf16 "alarms", .array diff.toWirePreviewBody)] := by
    cases held : exchange.boundToken with
    | none => exact ⟨.null, wire_null, rfl⟩
    | some token =>
        have pattern := bound.token token held
        rw [applyTokenPattern, Bool.and_eq_true, Bool.not_eq_true', decide_eq_false_iff_not]
          at pattern
        have narrow := narrow_messageIdPattern pattern.1
        refine ⟨.string token, wire_string (wellFormed_ascii narrow).1 ?_, rfl⟩
        exact Nat.le_trans (Nat.not_lt.mp pattern.2) (by decide)
  obtain ⟨value, wire, same⟩ := token
  have entries : List.Forall₂ (WireEntry 14)
      (applyBody exchange.boundToken diff.toWirePreviewBody : Entries δ)
      [("applyToken", 1), ("alarms", 609)] := by
    rw [same]
    exact .cons ⟨rfl, wire⟩ (.cons ⟨rfl, alarms⟩ .nil)
  have body : IsWire 15 611 (.object _ : Value δ) :=
    isWire_object entries (by decide) (by decide)
  exact envelope_read (by decide) nonneg accepted body (by decide)

/-- In every run of the exchange, whatever its calls throw and whoever replaces the store: the
frame of a preview or an apply that the app sends is read by the firmware as the envelope it
was written for, and accepted, if the proposals have texts without unpaired surrogates and
revisions that are not negative. -/
theorem requests_accepted (store : DeviceScheduleStore) {calls : List (Call δ)}
    (sendable : ∀ diff, .beginPreview diff ∈ calls → Sendable diff) {event : Event δ}
    (mem : event ∈ trace { exchange := create, store } calls) {envelope : Entries δ}
    (sent : event.outcome = .preview envelope ∨ event.outcome = .apply envelope) :
    ∃ frame bytes document, jsonEncode (.object envelope) = some frame ∧ EncodesAs frame bytes ∧
      (decoded document : Value δ) = .object envelope ∧
      parseJson bytes = .ok (represent document) ∧
      validateFixture (represent document) bytes.length = utf8 "accepted" := by
  have start : Bound Sendable create :=
    { armed := fun _ held => by cases held
      token := fun _ held => by cases held }
  obtain ⟨bound, same⟩ := @trace_bound δ _ Sendable { exchange := create, store } start calls
    sendable event mem
  rw [same] at sent
  rcases sent with preview | apply
  · obtain ⟨messageId, sentAt, built⟩ := of_preview preview
    exact preview_accepted bound built
  · obtain ⟨messageId, sentAt, built⟩ := of_apply apply
    exact apply_accepted bound built

/-- The apply that adds one alarm is accepted. -/
theorem requests_accepted_applyImported : ∃ event envelope,
    event ∈ trace { exchange := create, store := .empty } applyImported ∧
      event.outcome = .apply envelope ∧ IsAccepted envelope := by
  let armed := eventOf { exchange := create, store := .empty }
    (.beginPreview importedDiff : Call Empty)
  let previewed := eventOf armed.after (.buildPreview (utf16 "m1") epoch : Call Empty)
  let tokened := eventOf previewed.after (.receiveApplyToken (utf16 "t1") : Call Empty)
  let event := eventOf tokened.after (.buildApply (utf16 "m2") epoch : Call Empty)
  have whole : trace { exchange := create, store := .empty } applyImported =
      [armed, previewed, tokened, event] := rfl
  have mem : event ∈ trace { exchange := create, store := .empty } applyImported := by
    rw [whole]
    simp
  have ascii {units : DartString} (narrow : units.all (·.toNat < 128) = true) :
      IsWellFormed units :=
    (wellFormed_ascii fun u mem => of_decide_eq_true (List.all_eq_true.mp narrow u mem)).1
  have texts : (imported (utf16 "e1")).TextsWellFormed := by
    refine ⟨ascii (by decide), ascii (by decide), ascii (by decide), fun provenance carried => ?_⟩
    obtain rfl := Option.some.inj carried
    exact ascii (by decide)
  have sendable : ∀ diff, (.beginPreview diff : Call Empty) ∈ applyImported → Sendable diff := by
    intro diff begun
    obtain rfl : diff = importedDiff := by
      simpa [applyImported] using begun
    refine ⟨Int64.le_refl 0, fun draft mem => ?_⟩
    obtain rfl : draft = imported (utf16 "e1") := List.mem_singleton.mp mem
    exact texts
  have applied : event.isApply = true := by
    decide +kernel
  rw [Event.isApply] at applied
  cases outcome : event.outcome with
  | apply envelope =>
      exact ⟨event, envelope, mem, outcome, requests_accepted .empty sendable mem (.inr outcome)⟩
  | _ =>
      rw [outcome] at applied
      cases applied

end Runs

end ScheduleExchange

end DawnDock.App
