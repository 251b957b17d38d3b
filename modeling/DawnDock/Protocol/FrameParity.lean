import DawnDock.App.JsonText
import DawnDock.App.ScheduleExchange
import DawnDock.Protocol.Conformance

/-!
Frames from the app to the firmware (`frame_parity`): a payload is encoded by the app, its
bytes are parsed by the firmware, and the gates of the two settle it with the same code.

`validateFixture` is how `protocol_fixture_cross_language_test.cpp` applies the firmware's gate
to a parsed payload, with the size of the frame for that of its own compact text.
-/

namespace DawnDock

open App (DartString Entries Value ContractCode EncodesAs)

/-! ### Parsed payloads -/

/-- A member that is a string; without it the envelope keeps the empty one. -/
def textMember (value : JsonValue) (key : Text) : Text :=
  match findMember value key with
  | some (.string text) => text
  | _ => []

def revisionMember (value : JsonValue) : Option UInt64 :=
  match findMember value (utf8 "expectedRevision") with
  | some (.number revision) => if revision ≥ 0 then some revision.toUInt64 else none
  | _ => none

/-- The envelope that `validate_fixture` fills in. -/
def readEnvelope (value : JsonValue) (serializedSizeBytes : Nat) : ProtocolEnvelope where
  protocol := textMember value (utf8 "protocol")
  messageId := textMember value (utf8 "messageId")
  sentAtUtc := textMember value (utf8 "sentAt")
  type := textMember value (utf8 "type")
  expectedRevision := revisionMember value
  serializedSizeBytes

def validateFixture (value : JsonValue) (serializedSizeBytes : Nat) : Text :=
  let envelope := readEnvelope value serializedSizeBytes
  let envelopeResult := (validateProtocolEnvelope envelope none true).1
  if !envelopeResult.accepted then envelopeResult.code.toText
  else
    match findMember value (utf8 "body") with
    | none => utf8 "schema_invalid"
    | some body =>
      let bodyResult := validateProtocolMessageBody body envelope.type
      if !bodyResult.accepted then
        if bodyResult.code = .schemaInvalid then utf8 "schema_invalid"
        else utf8 "payload_semantic_error"
      else utf8 "accepted"

/-! ### Message ids -/

theorem narrow_isValidMessageIdChar {b : UInt8} (h : isValidMessageIdChar b = true) :
    b.toNat < 128 := by
  simp only [isValidMessageIdChar, isalnum, Bool.or_eq_true, Bool.and_eq_true, decide_eq_true_eq,
    beq_iff_eq] at h
  obtain ((((((h | h) | h) | rfl) | rfl) | rfl) | rfl) := h
  · exact narrow_digit h
  · exact narrow_of_le h.2 (by decide)
  · exact narrow_of_le h.2 (by decide)
  all_goals decide

theorem narrow_messageIdPattern {units : DartString} (valid : App.messageIdPattern units = true) :
    ∀ u ∈ units, u.toNat < 128 := by
  simp only [App.messageIdPattern, Bool.and_eq_true, List.all_eq_true, Bool.or_eq_true,
    beq_iff_eq] at valid
  intro u mem
  obtain ((((((h | h) | h) | rfl) | rfl) | rfl) | rfl) := valid.2 u mem
  · simp only [App.upper, Bool.and_eq_true, decide_eq_true_eq] at h
    exact narrow_app_of_le h.2 (by decide)
  · exact narrow_app_lower h
  · exact narrow_app_digit h
  all_goals decide

theorem messageIdChar_ascii : ∀ code < 128, isValidMessageIdChar (UInt8.ofNat code) =
    (App.upper (UInt16.ofNat code) || App.lower (UInt16.ofNat code) ||
      App.digit (UInt16.ofNat code) || UInt16.ofNat code == 0x2e || UInt16.ofNat code == 0x5f ||
      UInt16.ofNat code == 0x3a || UInt16.ofNat code == 0x2d) := by
  decide

theorem same_messageId : SameOnText isValidMessageId App.messageIdPattern := by
  apply SameOnText.of_ascii
  · intro bytes valid b mem
    rw [isValidMessageId] at valid
    split at valid
    · cases valid
    exact narrow_isValidMessageIdChar (List.all_eq_true.mp valid b mem)
  · exact narrow_messageIdPattern
  · intro codes small
    have every := @all_ascii codes isValidMessageIdChar (fun unit => App.upper unit ||
      App.lower unit || App.digit unit || unit == 0x2e || unit == 0x5f || unit == 0x3a ||
      unit == 0x2d) messageIdChar_ascii small
    rw [isValidMessageId, App.messageIdPattern, every, List.isEmpty_map]
    simp only [List.length_map, kProtocolMessageIdMaximumBytes]
    cases codes with
    | nil => rfl
    | cons code codes =>
        by_cases fits : (code :: codes).length ≤ 128
        · have kept : ¬ (List.isEmpty (code :: codes) ||
              decide ((code :: codes).length > 128)) = true := by
            simpa using fits
          have bounds : (decide (1 ≤ (code :: codes).length) &&
              decide ((code :: codes).length ≤ 128)) = true := by
            simpa using fits
          rw [if_neg kept, bounds, Bool.true_and]
        · have cut : (List.isEmpty (code :: codes) ||
              decide ((code :: codes).length > 128)) = true :=
            Bool.or_eq_true_iff.mpr (.inr (decide_eq_true (Nat.lt_of_not_le fits)))
          have bounds : (decide (1 ≤ (code :: codes).length) &&
              decide ((code :: codes).length ≤ 128)) = false :=
            Bool.and_eq_false_iff.mpr (.inr (decide_eq_false fits))
          rw [if_pos cut, bounds, Bool.false_and]

/-! ### Fields -/

section Fields

theorem allWithin_string {text : List Char}
    (short : (Utf8.encode text).length ≤ kJsonMaximumStringBytes) : AllWithin (.string text) := by
  intro value mem
  rw [Json.values, List.mem_singleton] at mem
  rw [mem]
  exact short

variable {δ : Type} [App.Double δ] {members : List (List Char × Json.Document)}

omit [App.Double δ] in
/-- A check on a string member: it fails where there is none. -/
theorem textMember_check (name : String) {firmware : Text → Bool} {app : DartString → Bool}
    (same : SameOnText firmware app) (empty : firmware [] = false) :
    firmware (textMember (represent (.object members)) (utf8 name)) =
      App.isString app
        (App.index (members.map decodedEntry : Entries δ) (App.utf16 name)) := by
  rw [textMember, findMember_represent, index_decoded]
  cases member? members name with
  | none => exact empty
  | some document =>
      cases document with
      | string chars => exact same chars
      | _ => exact empty

/-- A revision that is there is read, where it is one. -/
theorem revisionMember_isNone
    (typed : App.RevisionTyped (members.map decodedEntry : Entries δ)) :
    (revisionMember (represent (.object members))).isNone =
      !App.containsKey (members.map decodedEntry : Entries δ) (App.utf16 "expectedRevision") := by
  rw [revisionMember, findMember_represent, containsKey_decoded]
  have revision := typed
  unfold App.RevisionTyped at revision
  rw [lookup_decoded] at revision
  cases found : member? members "expectedRevision" with
  | none => rfl
  | some document =>
      rw [found] at revision
      have isRevision := revision (decoded document) rfl
      cases document with
      | number value =>
          have nonneg : Int64.ofInt value ≥ 0 := by
            rw [ge_iff_le, Int64.le_iff_toInt_le]
            exact isRevision
          simp [represent, Json.map, nonneg]
      | _ => exact isRevision.elim

omit [App.Double δ] in
theorem isString_never (value : Value δ) : App.isString (fun _ => false) value = false := by
  cases value
  all_goals rfl

omit [App.Double δ] in
/-- The type of an envelope that has passed, as the two sides read it. -/
theorem type_of_passed
    (passed : App.envelopeCode (members.map decodedEntry : Entries δ) none = none) :
    ∃ type : String, textMember (represent (.object members)) (utf8 "type") = utf8 type ∧
      App.asString (App.index (members.map decodedEntry : Entries δ) (App.utf16 "type")) =
        App.utf16 type := by
  obtain ⟨-, ⟨text, -, found⟩, -⟩ := App.of_envelopeCode passed
  have read := App.index_of_lookup found
  rw [lookup_decoded] at found
  obtain ⟨document, member, same⟩ := Option.map_eq_some_iff.mp found
  cases document with
  | string chars =>
      cases same
      refine ⟨String.ofList chars, ?_, ?_⟩
      · rw [textMember, findMember_represent, member, utf8_eq, String.toList_ofList]
        rfl
      · rw [read, App.utf16, String.toList_ofList]
        rfl
  | _ => cases same

end Fields

/-! ### The gates -/

section Gates

variable {δ : Type} [App.Double δ] {members : List (List Char × Json.Document)}

theorem same_eq (text : String) : SameOnText (· == utf8 text) (· == App.utf16 text) := by
  intro chars
  rw [Bool.eq_iff_iff, beq_iff_eq, beq_iff_eq, utf8_eq, App.utf16, Utf8.encode_injective.eq_iff,
    Utf16.encode_injective.eq_iff]

def requestTypes : List String :=
  ["device.status.get", "time.configure", "schedule.preview", "schedule.apply", "schedule.get",
    "diagnostics.get", "backup.export", "factory.reset", "event.syncReceipt", "event.alarmState",
    "error.response"]

theorem same_knownTypes : SameOnText isKnownRequestType App.kKnownTypes.contains :=
  same_contains (.refl requestTypes)

theorem same_requiredTypes :
    SameOnText requiresExpectedRevision App.kRevisionRequiredTypes.contains := by
  intro chars
  have same (name : String) : (Utf8.encode chars == utf8 name) =
      (Utf16.encode chars == App.utf16 name) := same_eq name chars
  rw [App.kRevisionRequiredTypes, List.contains_cons, List.contains_cons, List.contains_nil,
    Bool.or_false, ← same, ← same]
  rfl

/-- The two gates on an envelope, up to its size. -/
theorem envelope_codes (typed : App.RevisionTyped (members.map decodedEntry : Entries δ))
    (size : Nat) :
    (∃ code, App.envelopeCode (members.map decodedEntry : Entries δ) none = some code ∧
      (envelopeResult (readEnvelope (represent (.object members)) size) none).accepted = false ∧
      (envelopeResult (readEnvelope (represent (.object members)) size) none).code.toText =
        utf8 (App.contractCodeName code)) ∨
    App.envelopeCode (members.map decodedEntry : Entries δ) none = none ∧
      envelopeResult (readEnvelope (represent (.object members)) size) none =
        (if size > kProtocolEnvelopeMaximumBytes then { code := .envelopeTooLarge }
          else { code := .accepted, accepted := true }) := by
  have protocol := @textMember_check δ members "protocol" _ _
    (same_eq "dawn-dock/1") rfl
  have type := @textMember_check δ members "type" _ _ same_knownTypes rfl
  have messageId := @textMember_check δ members "messageId" _ _ same_messageId rfl
  have sentAt := @textMember_check δ members "sentAt" _ _ same_utcInstant rfl
  have required := @textMember_check δ members "type" _ _ same_requiredTypes rfl
  have revision := revisionMember_isNone typed
  simp only [envelopeResult, readEnvelope, App.envelopeCode, bne, protocol, type, messageId, sentAt,
    required, revision, Option.any_none, isString_never, App.kProtocolVersion]
  -- Each check in turn: where it fails, both gates end with its code.
  cases App.isString (fun text => text == App.utf16 "dawn-dock/1")
    (App.index (members.map decodedEntry : Entries δ) (App.utf16 "protocol")) with
  | false => exact .inl ⟨_, rfl, rfl, rfl⟩
  | true =>
      cases App.isString App.kKnownTypes.contains
        (App.index (members.map decodedEntry : Entries δ) (App.utf16 "type")) with
      | false => exact .inl ⟨_, rfl, rfl, rfl⟩
      | true =>
          cases App.isString App.messageIdPattern
            (App.index (members.map decodedEntry : Entries δ) (App.utf16 "messageId")) with
          | false => exact .inl ⟨_, rfl, rfl, rfl⟩
          | true =>
              cases App.isString App.validUtcInstant
                (App.index (members.map decodedEntry : Entries δ) (App.utf16 "sentAt")) with
              | false => exact .inl ⟨_, rfl, rfl, rfl⟩
              | true =>
                  cases App.isString App.kRevisionRequiredTypes.contains
                      (App.index (members.map decodedEntry : Entries δ) (App.utf16 "type")) &&
                    !App.containsKey (members.map decodedEntry : Entries δ)
                      (App.utf16 "expectedRevision") with
                  | true => exact .inl ⟨_, rfl, rfl, rfl⟩
                  | false => exact .inr ⟨rfl, rfl⟩

/-- The result of a body says that it is accepted just with that code. -/
theorem accepted_of_agrees {check : BodyCheck Unit} {code : ContractCode}
    (agrees : Agrees check code) :
    check.result.accepted = decide (check.result.code = .accepted) := by
  rcases agrees with ⟨rfl, -⟩ | ⟨reason, path, rfl, refused, -⟩
  · rfl
  · exact (decide_eq_false refused).symm

theorem bodyResult_accepted (document : Json.Document) (type : Text) :
    (validateProtocolMessageBody (represent document) type).accepted =
      decide ((validateProtocolMessageBody (represent document) type).code = .accepted) := by
  cases document with
  | object members =>
      rw [validateProtocolMessageBody, isObject_represent, Bool.not_true,
        if_neg Bool.false_ne_true]
      split
      · exact accepted_of_agrees (agrees_scheduleBody (δ := Empty))
      split
      · exact accepted_of_agrees (agrees_errorResponseBody (δ := Empty))
      split
      · exact accepted_of_agrees (agrees_syncReceiptBody (δ := Empty))
      · rfl
  | _ => rfl

omit [App.Double δ] in
/-- What `validate_fixture` says of a body. -/
theorem body_codes (type : String) (document : Json.Document) :
    (if !(validateProtocolMessageBody (represent document) (utf8 type)).accepted then
        if (validateProtocolMessageBody (represent document) (utf8 type)).code = .schemaInvalid then
          utf8 "schema_invalid"
        else utf8 "payload_semantic_error"
      else utf8 "accepted") =
      utf8 (App.contractCodeName
        (App.validateBody (App.utf16 type) (decoded document : Value δ))) := by
  rw [bodyResult_accepted, ← validateBody_decoded]
  cases (validateProtocolMessageBody (represent document) (utf8 type)).code
  all_goals rfl

theorem validateProtocolEnvelope_fst (envelope : ProtocolEnvelope) (window : Option ReplayWindow)
    (rememberAccepted : Bool) : (validateProtocolEnvelope envelope window rememberAccepted).1 =
      envelopeResult envelope window := by
  rw [validateProtocolEnvelope]
  split
  · rfl
  · rfl

/-- What the app writes for a payload, and the code both gates settle it with. -/
theorem frame_codes (nests : Json.NestsWithin 16 (.object members))
    (count : (Json.object members).count ≤ 8192) (within : AllWithin (.object members))
    (plain : member? members "_fixtureMeta" = none)
    (typed : App.RevisionTyped (members.map decodedEntry : Entries δ)) :
    ∃ frame bytes code,
      App.jsonEncode (.object (members.map decodedEntry) : Value δ) = some frame ∧
      EncodesAs frame bytes ∧
      App.validateContractMessage (members.map decodedEntry : Entries δ) none = some (code, none) ∧
      (bytes.length ≤ 65536 → parseJson bytes = .ok (represent (.object members)) ∧
        validateFixture (represent (.object members)) bytes.length =
          utf8 (App.contractCodeName code)) ∧
      (65536 < bytes.length → code ≠ .accepted ∧
        ∃ error, parseJson bytes = .error error ∧ error.code = .inputTooLarge) := by
  obtain ⟨frame, bytes, canonical, encoded, same, wrote, size, parses⟩ :=
    App.parseJson_written (δ := δ) nests count within
  rw [decoded_object] at encoded wrote
  have sized : App.serializedEnvelopeBytes (members.map decodedEntry : Entries δ) =
      some bytes.length := by
    have unreported : App.reportedSize (members.map decodedEntry : Entries δ) = none := by
      rw [App.reportedSize, index_decoded, plain]
      rfl
    rw [App.serializedEnvelopeBytes, unreported, ← size]
    exact congrArg (Option.map App.utf8Length) wrote
  have refused (long : 65536 < bytes.length) :
      ∃ error, parseJson bytes = .error error ∧ error.code = .inputTooLarge := by
    have nonempty : ¬ bytes.isEmpty = true := by
      rw [List.isEmpty_iff_length_eq_zero]
      omega
    refine ⟨{ code := .inputTooLarge, path := [] }, ?_, rfl⟩
    rw [parseJson, if_neg nonempty, if_pos (show bytes.length > kMaximumInputBytes from long)]
    rfl
  rcases envelope_codes typed bytes.length with ⟨code, failed, rejected, name⟩ | ⟨passed, result⟩
  · refine ⟨frame, bytes, code, encoded, same, ?_, fun short => ⟨parses short, ?_⟩, fun long =>
      ⟨?_, refused long⟩⟩
    · rw [App.validateContractMessage, failed]
    · rw [validateFixture]
      dsimp only
      rw [validateProtocolEnvelope_fst, rejected]
      exact name
    · rintro rfl
      exact App.envelopeCode_ne_accepted failed
  · obtain ⟨type, read, readApp⟩ := type_of_passed passed
    by_cases long : 65536 < bytes.length
    · refine ⟨frame, bytes, .envelopeTooLarge, encoded, same, ?_, fun short => ?_, fun _ =>
        ⟨?_, refused long⟩⟩
      · rw [App.validateContractMessage, passed, sized]
        exact if_pos long
      · exact absurd long (Nat.not_lt.mpr short)
      · intro accepted
        cases accepted
    · refine ⟨frame, bytes, App.validateBody (App.utf16 type)
        (App.index (members.map decodedEntry : Entries δ) (App.utf16 "body")), encoded, same, ?_,
        fun short => ⟨parses short, ?_⟩, fun more => absurd more long⟩
      · rw [App.validateContractMessage, passed, sized, readApp]
        refine (if_neg long).trans ?_
        split
        · rfl
        · rfl
      · rw [validateFixture]
        dsimp only
        rw [validateProtocolEnvelope_fst, result,
          if_neg (show ¬ bytes.length > kProtocolEnvelopeMaximumBytes from long),
          findMember_represent, index_decoded]
        cases member? members "body" with
        | none => rfl
        | some document =>
            have codes := body_codes (δ := δ) type document
            rw [← read] at codes
            exact codes

omit [App.Double δ] in
theorem contractCodeName_accepted {code : ContractCode} :
    utf8 (App.contractCodeName code) = utf8 "accepted" ↔ code = .accepted := by
  rw [utf8_inj]
  cases code
  all_goals decide

/-- A frame that the app writes, whatever the payload. The firmware accepts it if and only if
the app's gate accepts the payload. It parses the frame, unless that is longer than its parser
takes, and settles it with the code of the app. -/
theorem frame_parity (nests : Json.NestsWithin 16 (.object members))
    (count : (Json.object members).count ≤ 8192) (within : AllWithin (.object members))
    (plain : member? members "_fixtureMeta" = none)
    (typed : App.RevisionTyped (members.map decodedEntry : Entries δ)) :
    ∃ frame bytes, App.jsonEncode (.object (members.map decodedEntry) : Value δ) = some frame ∧
      EncodesAs frame bytes ∧
      ((∃ after, App.validateContractMessage (members.map decodedEntry : Entries δ) none =
          some (.accepted, after)) ↔
        ∃ value, parseJson bytes = .ok value ∧
          validateFixture value bytes.length = utf8 "accepted") ∧
      ∀ code after, App.validateContractMessage (members.map decodedEntry : Entries δ) none =
          some (code, after) →
        (bytes.length ≤ 65536 → ∃ value, parseJson bytes = .ok value ∧
          validateFixture value bytes.length = utf8 (App.contractCodeName code)) ∧
        (65536 < bytes.length → ∃ error, parseJson bytes = .error error ∧
          error.code = .inputTooLarge) := by
  obtain ⟨frame, bytes, code, encoded, same, settled, short, long⟩ :=
    frame_codes (δ := δ) nests count within plain typed
  refine ⟨frame, bytes, encoded, same, ?_, ?_⟩
  · constructor
    · rintro ⟨after, accepted⟩
      rw [settled] at accepted
      cases accepted
      obtain ⟨parsed, name⟩ := short (Nat.not_lt.mp fun more => (long more).1 rfl)
      exact ⟨_, parsed, name⟩
    · rintro ⟨value, parsed, name⟩
      have fits : bytes.length ≤ 65536 := by
        by_contra more
        obtain ⟨-, error, failed, -⟩ := long (Nat.not_le.mp more)
        rw [failed] at parsed
        cases parsed
      obtain ⟨read, named⟩ := short fits
      obtain rfl := Except.ok.inj (read.symm.trans parsed)
      rw [contractCodeName_accepted.mp (named.symm.trans name)] at settled
      exact ⟨_, settled⟩
  · intro other after said
    rw [settled] at said
    cases said
    exact ⟨fun fits => ⟨_, short fits⟩, fun more => (long more).2⟩

/-- A request for the status of the device. -/
def statusGet : List (List Char × Json.Document) :=
  [("protocol".toList, .string "dawn-dock/1".toList), ("messageId".toList, .string ['m', '1']),
    ("sentAt".toList, .string "2026-08-21T00:00:00Z".toList),
    ("type".toList, .string "device.status.get".toList), ("body".toList, .object [])]

theorem frame_parity_statusGet : ∃ frame bytes,
    App.jsonEncode (.object (statusGet.map decodedEntry) : Value Empty) = some frame ∧
      EncodesAs frame bytes ∧ ∃ value, parseJson bytes = .ok value ∧
        validateFixture value bytes.length = utf8 "accepted" := by
  have nests : Json.NestsWithin 16 (.object statusGet) := by
    simp [statusGet, Json.NestsWithin]
  have within : AllWithin (.object statusGet) := by
    have member {name : String} {text : List Char}
        (key : (Utf8.encode name.toList).length ≤ kJsonMaximumStringBytes)
        (short : (Utf8.encode text).length ≤ kJsonMaximumStringBytes) :
        MemberWithin (name.toList, .string text) := ⟨key, allWithin_string short⟩
    refine allWithin_object.mpr ⟨by decide, ?_⟩
    simp only [statusGet, List.forall_mem_cons]
    refine ⟨member (by decide) (by decide), member (by decide) (by decide),
      member (by decide) (by decide), member (by decide) (by decide), ⟨by decide, ?_⟩,
      List.forall_mem_nil _⟩
    exact allWithin_object.mpr ⟨List.nodup_nil, List.forall_mem_nil _⟩
  have typed : App.RevisionTyped (statusGet.map decodedEntry : Entries Empty) := by
    intro value found
    rw [lookup_decoded] at found
    cases found
  obtain ⟨frame, bytes, encoded, same, accepted, -⟩ :=
    frame_parity (δ := Empty) nests (by decide) within rfl typed
  have accepts : App.validateContractMessage (statusGet.map decodedEntry : Entries Empty) none =
      some (.accepted, none) := by
    decide +kernel
  exact ⟨frame, bytes, encoded, same, accepted.mp ⟨_, accepts⟩⟩

end Gates

end DawnDock
