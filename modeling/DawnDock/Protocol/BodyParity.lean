import DawnDock.Protocol.TextParity
import DawnDock.Protocol.JsonGrammar

/-!
The body validators of the app and of the firmware agree (`body_parity`).

Both read one document: the firmware what its parser makes of it (`represent`), the app
what its decoder does (`decoded`). `Agrees` relates a check of the firmware to the code
of the app; each step of a validator has its lemma, and the validators are compared step
by step in their common order.
-/

namespace DawnDock

open App (ContractCode)

variable {δ : Type}

/-- A number of the document as the app decodes it. -/
def decodedNumber (value : Int) : App.Number δ := .int (Int64.ofInt value)

/-- The value the app decodes from a text of the document. -/
def decoded (document : Json.Document) : App.Value δ := document.map Utf16.encode decodedNumber

def decodedEntry (member : List Char × Json.Document) : App.DartString × App.Value δ :=
  (Utf16.encode member.1, decoded member.2)

section Documents

variable {elements : List Json.Document} {members : List (List Char × Json.Document)}

theorem decoded_array :
    (decoded (.array elements) : App.Value δ) = .array (elements.map decoded) := by
  rw [decoded, Json.map, Json.mapElements_eq]
  rfl

theorem decoded_object :
    (decoded (.object members) : App.Value δ) = .object (members.map decodedEntry) := by
  rw [decoded, Json.map, Json.mapMembers_eq]
  rfl

theorem isObject_represent : isObject (represent (.object members)) = true := by
  rw [represent_object]
  rfl

/-- The first member with the key. -/
def member? (members : List (List Char × Json.Document)) (key : String) : Option Json.Document :=
  (members.find? fun member => member.1 == key.toList).map Prod.snd

theorem findMember_represent (key : String) :
    findMember (represent (.object members)) (utf8 key) = (member? members key).map represent := by
  have keys : ((fun member : Text × JsonValue => member.1 == utf8 key) ∘ representMember) =
      fun member => member.1 == key.toList := by
    funext member
    rw [Bool.eq_iff_iff, Function.comp_apply, beq_iff_eq, beq_iff_eq, utf8_eq]
    exact Utf8.encode_injective.eq_iff
  rw [represent_object, findMember, List.find?_map, keys, member?, Option.map_map, Option.map_map]
  rfl

theorem lookup_decoded (key : String) :
    App.lookup (members.map decodedEntry : App.Entries δ) (App.utf16 key) =
      (member? members key).map decoded := by
  have keys : ((fun entry : App.DartString × App.Value δ => entry.1 == App.utf16 key) ∘
      decodedEntry) = fun member => member.1 == key.toList := by
    funext member
    rw [Bool.eq_iff_iff, Function.comp_apply, beq_iff_eq, beq_iff_eq]
    exact Utf16.encode_injective.eq_iff
  rw [App.lookup, List.find?_map, keys, member?, Option.map_map, Option.map_map]
  rfl

theorem index_decoded (key : String) :
    App.index (members.map decodedEntry : App.Entries δ) (App.utf16 key) =
      ((member? members key).map decoded).getD .null := by
  rw [App.index, lookup_decoded]

end Documents

/-! ### Checks -/

def MessageBodyCode.inApp : MessageBodyCode → ContractCode
  | .accepted => .accepted
  | .schemaInvalid => .schemaInvalid
  | .payloadSemanticError => .payloadSemanticError

/-- The check passes where the app accepts, and else fails with the app's code. -/
def Agrees (check : BodyCheck Unit) (code : ContractCode) : Prop :=
  (check = .ok () ∧ code = .accepted) ∨
    ∃ reason path, check = reject reason path ∧ reason ≠ .accepted ∧ code = reason.inApp

section Steps

variable {members : List (List Char × Json.Document)} {path : Text} {next : BodyCheck Unit}
  {code : ContractCode}

theorem agrees_ok : Agrees (.ok ()) .accepted := .inl ⟨rfl, rfl⟩

theorem agrees_invalid {path : Text} : Agrees (reject .schemaInvalid path) .schemaInvalid :=
  .inr ⟨.schemaInvalid, path, rfl, by decide, rfl⟩

theorem agrees_semantic {path : Text} :
    Agrees (reject .payloadSemanticError path) .payloadSemanticError :=
  .inr ⟨.payloadSemanticError, path, rfl, by decide, rfl⟩

theorem Agrees.code_eq {check : BodyCheck Unit} (agrees : Agrees check code) :
    check.result.code.inApp = code := by
  obtain ⟨rfl, rfl⟩ | ⟨reason, path, rfl, -, rfl⟩ := agrees
  · rfl
  · rfl

/-- A check that passes with `p`, and the rest. -/
theorem agrees_step {check : BodyCheck Unit} {p : Bool} (passes : p = true → check = .ok ())
    (fails : p = false → ∃ path, check = reject .schemaInvalid path) (rest : Agrees next code) :
    Agrees (check >>= fun _ => next) (if !p then .schemaInvalid else code) := by
  cases p with
  | true =>
      rw [passes rfl]
      exact rest
  | false =>
      obtain ⟨path, failed⟩ := fails rfl
      rw [failed]
      exact agrees_invalid

theorem ensure_true {key : Text} {ok : Bool} (h : ok = true) : ensure ok path key = .ok () :=
  if_pos h

theorem ensure_false {key : Text} {ok : Bool} (h : ok = false) :
    ensure ok path key = reject .schemaInvalid (childPath path key) := by
  rw [ensure, h]
  rfl

/-- A string member and the check on it. -/
theorem agrees_string (name : String) {firmware : Text → Bool} {app : App.DartString → Bool}
    (same : SameOnText firmware app) (rest : Agrees next code) :
    Agrees (requireString (represent (.object members)) (utf8 name) path >>= fun text =>
        ensure (firmware text) path (utf8 name) >>= fun _ => next)
      (if !App.isString app
          (App.index (members.map decodedEntry : App.Entries δ) (App.utf16 name)) then
        .schemaInvalid else code) := by
  rw [requireString, findMember_represent, index_decoded]
  cases member? members name with
  | none => exact agrees_invalid
  | some document =>
      cases document with
      | string chars =>
          refine agrees_step (p := app (Utf16.encode chars)) ?_ ?_ rest
          · intro passed
            exact ensure_true ((same chars).trans passed)
          · intro failed
            exact ⟨_, ensure_false ((same chars).trans failed)⟩
      | _ => exact agrees_invalid

theorem agrees_boolean (name : String) (rest : Agrees next code) :
    Agrees (requireBoolean (represent (.object members)) (utf8 name) path >>= fun _ => next)
      (if !App.isBool
          (App.index (members.map decodedEntry : App.Entries δ) (App.utf16 name)) then
        .schemaInvalid else code) := by
  rw [requireBoolean, findMember_represent, index_decoded]
  cases member? members name with
  | none => exact agrees_invalid
  | some document =>
      cases document with
      | boolean value => exact rest
      | _ => exact agrees_invalid

/-- An integer member and the check on it. -/
theorem agrees_integer (name : String) {check : Int64 → Bool} (rest : Agrees next code) :
    Agrees (requireInteger (represent (.object members)) (utf8 name) path >>= fun value =>
        ensure (check value) path (utf8 name) >>= fun _ => next)
      (if !App.isInt check
          (App.index (members.map decodedEntry : App.Entries δ) (App.utf16 name)) then
        .schemaInvalid else code) := by
  rw [requireInteger, findMember_represent, index_decoded]
  cases member? members name with
  | none => exact agrees_invalid
  | some document =>
      cases document with
      | number value =>
          refine agrees_step (p := check (Int64.ofInt value)) ?_ ?_ rest
          · intro passed
            exact ensure_true passed
          · intro failed
            exact ⟨_, ensure_false failed⟩
      | _ => exact agrees_invalid

/-! ### Keys -/

theorem forEach_all {keys : List Text} {ok : Text → Bool} {path : Text → Text} :
    (keys.all ok = true → forEach (fun key =>
        if ok key then .ok () else reject .schemaInvalid (path key)) keys = .ok ()) ∧
      (keys.all ok = false → ∃ found, forEach (fun key =>
        if ok key then .ok () else reject .schemaInvalid (path key)) keys =
          reject .schemaInvalid found) := by
  induction keys with
  | nil => exact ⟨fun _ => rfl, nofun⟩
  | cons key keys ih =>
      rw [List.all_cons, forEach]
      cases passed : ok key with
      | true => exact ih
      | false => exact ⟨nofun, fun _ => ⟨_, rfl⟩⟩

theorem hasMember_represent (name : String) :
    hasMember (represent (.object members)) (utf8 name) = (member? members name).isSome := by
  rw [hasMember, findMember_represent, Option.isSome_map]

theorem containsKey_decoded (name : String) :
    App.containsKey (members.map decodedEntry : App.Entries δ) (App.utf16 name) =
      (member? members name).isSome := by
  rw [App.containsKey, lookup_decoded, Option.isSome_map]

theorem keysOf_contains (name : String) :
    (App.keysOf (members.map decodedEntry : App.Entries δ)).contains (App.utf16 name) =
      (member? members name).isSome := by
  rw [Bool.eq_iff_iff, List.contains_iff_mem, App.keysOf, List.map_map, member?,
    Option.isSome_map, List.find?_isSome, List.mem_map]
  refine exists_congr fun member => and_congr_right fun _ => ?_
  rw [beq_iff_eq]
  exact Utf16.encode_injective.eq_iff

/-- The keys an object must have. -/
theorem all_required (names : List String) :
    (names.map utf8).all (hasMember (represent (.object members))) =
      (names.map App.utf16).all (App.keysOf (members.map decodedEntry : App.Entries δ)).contains := by
  induction names with
  | nil => rfl
  | cons name names ih =>
      rw [List.map_cons, List.map_cons, List.all_cons, List.all_cons, ih, hasMember_represent,
        keysOf_contains]

/-- The keys an object may have. -/
theorem all_allowed {names appNames : List String} (same : names.Perm appNames) :
    (memberKeys (represent (.object members))).all (names.map utf8).contains =
      (App.keysOf (members.map decodedEntry : App.Entries δ)).all
        (appNames.map App.utf16).contains := by
  rw [represent_object, memberKeys, App.keysOf]
  induction members with
  | nil => rfl
  | cons member members ih =>
      rw [List.map_cons, List.map_cons, List.map_cons, List.map_cons, List.all_cons, List.all_cons,
        ih]
      congr 1
      exact same_contains same member.1

/-- The keys an object must and may have. -/
theorem agrees_keys (required : List String) {allowed appAllowed : List String}
    (same : allowed.Perm appAllowed)
    (rest : (∀ name ∈ required, (member? members name).isSome = true) → Agrees next code) :
    Agrees (checkMissingRequired (represent (.object members)) path (required.map utf8) >>=
        fun _ => checkNoUnknownKeys (represent (.object members)) path (allowed.map utf8) >>=
        fun _ => next)
      (if !(required.map App.utf16).all
            (App.keysOf (members.map decodedEntry : App.Entries δ)).contains ||
          !(App.keysOf (members.map decodedEntry : App.Entries δ)).all
            (appAllowed.map App.utf16).contains then
        .schemaInvalid else code) := by
  rw [← all_required, ← all_allowed same]
  have missing := @forEach_all (required.map utf8)
    (hasMember (represent (.object members))) (childPath path)
  have unknown := @forEach_all (memberKeys (represent (.object members)))
    (allowed.map utf8).contains (childPath path)
  cases present : (required.map utf8).all (hasMember (represent (.object members))) with
  | false =>
      obtain ⟨found, failed⟩ := missing.2 present
      rw [checkMissingRequired, failed]
      exact agrees_invalid
  | true =>
      rw [checkMissingRequired, missing.1 present, Bool.not_true, Bool.false_or]
      have complete : ∀ name ∈ required, (member? members name).isSome = true := by
        intro name mem
        rw [← hasMember_represent]
        exact List.all_eq_true.mp present _ (List.mem_map_of_mem mem)
      change Agrees (checkNoUnknownKeys (represent (.object members)) path (allowed.map utf8) >>=
        fun _ => next) _
      exact agrees_step unknown.1 unknown.2 (rest complete)

end Steps

/-! ### Alarms -/

section Alarms

variable {members : List (List Char × Json.Document)} {path : Text} {next : BodyCheck Unit}
  {code : ContractCode}

theorem checkDays_agree (days : List Json.Document) (index : Nat) (seen : List Int64) :
    (App.checkDays seen (days.map decoded : List (App.Value δ)) = true →
      checkDays path index seen (days.map represent) = .ok ()) ∧
    (App.checkDays seen (days.map decoded : List (App.Value δ)) = false →
      ∃ found, checkDays path index seen (days.map represent) = reject .schemaInvalid found) := by
  induction days generalizing index seen with
  | nil => exact ⟨fun _ => rfl, nofun⟩
  | cons day days ih =>
      rw [List.map_cons, List.map_cons]
      cases day with
      | number value =>
          change (App.checkDays seen (.number (.int (Int64.ofInt value)) :: days.map decoded) =
              true → checkDays path index seen (.number (Int64.ofInt value) ::
                days.map represent) = .ok ()) ∧
            (App.checkDays seen (.number (.int (Int64.ofInt value)) :: days.map decoded) =
              false → ∃ found, checkDays path index seen (.number (Int64.ofInt value) ::
                days.map represent) = reject .schemaInvalid found)
          rw [App.checkDays, checkDays]
          generalize Int64.ofInt value = number
          by_cases range : (number < 0 || number > 6) = true
          · rw [if_pos range, range, Bool.true_or]
            exact ⟨nofun, fun _ => ⟨_, rfl⟩⟩
          rw [if_neg range, Bool.eq_false_iff.mpr range, Bool.false_or]
          by_cases again : seen.contains number = true
          · rw [if_pos again, if_pos again]
            exact ⟨nofun, fun _ => ⟨_, rfl⟩⟩
          · rw [if_neg again, if_neg again]
            exact ih (index + 1) (number :: seen)
      | _ => exact ⟨nofun, fun _ => ⟨_, rfl⟩⟩

theorem agrees_days (rest : Agrees next code) :
    Agrees (checkAlarmDays (represent (.object members)) path >>= fun _ => next)
      (if !App.isDays
          (App.index (members.map decodedEntry : App.Entries δ) (App.utf16 "days")) then
        .schemaInvalid else code) := by
  rw [checkAlarmDays, findMember_represent, index_decoded]
  cases member? members "days" with
  | none => exact agrees_invalid
  | some document =>
      cases document with
      | array days =>
          rw [Option.map_some, Option.map_some, Option.getD_some, represent_array, decoded_array]
          have each := @checkDays_agree δ (childPath path (utf8 "days")) days 0 []
          apply agrees_step
          · intro passed
            rw [App.isDays, Bool.and_eq_true, Bool.not_eq_true', List.isEmpty_map,
              List.length_map] at passed
            dsimp only
            rw [List.isEmpty_map, List.length_map, if_neg (Bool.eq_false_iff.mp passed.1)]
            exact each.1 passed.2
          · intro failed
            rw [App.isDays, List.isEmpty_map, List.length_map] at failed
            dsimp only
            rw [List.isEmpty_map, List.length_map]
            by_cases size : (days.isEmpty || decide (days.length > 7)) = true
            · rw [if_pos size]
              exact ⟨_, rfl⟩
            · rw [if_neg size]
              rw [Bool.eq_false_iff.mpr size, Bool.not_false, Bool.true_and] at failed
              exact each.2 failed
          · exact rest
      | _ => exact agrees_invalid

theorem agrees_sourceEventId (present : (member? members "sourceEventId").isSome = true) :
    Agrees (checkSourceEventId (represent (.object members)) path)
      (if !App.isSourceEventId
          (App.index (members.map decodedEntry : App.Entries δ) (App.utf16 "sourceEventId")) then
        .schemaInvalid else .accepted) := by
  rw [checkSourceEventId, findMember_represent, index_decoded]
  cases found : member? members "sourceEventId" with
  | none =>
      rw [found] at present
      cases present
  | some document =>
      cases document with
      | string chars =>
          have same := same_bounded kBodyMaximumSourceEventIdBytes chars
          change Agrees (ensure (decide ((Utf8.encode chars).length ≤
              kBodyMaximumSourceEventIdBytes)) path (utf8 "sourceEventId"))
            (if !App.isUtf8Bounded (Utf16.encode chars) App.kMaxSourceEventIdBytes then
              .schemaInvalid else .accepted)
          cases bounded : App.isUtf8Bounded (Utf16.encode chars) App.kMaxSourceEventIdBytes with
          | true =>
              rw [ensure_true (same.trans bounded)]
              exact agrees_ok
          | false =>
              rw [ensure_false (same.trans bounded)]
              exact agrees_invalid
      | null => exact agrees_ok
      | _ => exact agrees_invalid

/-- The names of an alarm's members. -/
def alarmNames : List String :=
  ["id", "label", "enabled", "localTime", "days", "timezone", "snoozeMinutes", "volume", "sound",
    "source", "sourceEventId"]

theorem same_source : SameOnText (fun text => !(text != utf8 "manual" && text != utf8 "ics"))
    (fun text => text == App.utf16 "manual" || text == App.utf16 "ics") := by
  intro chars
  have same (name : String) : (Utf8.encode chars == utf8 name) =
      (Utf16.encode chars == App.utf16 name) := by
    rw [Bool.eq_iff_iff, beq_iff_eq, beq_iff_eq, utf8_eq, App.utf16,
      Utf8.encode_injective.eq_iff, Utf16.encode_injective.eq_iff]
  dsimp only
  rw [bne, bne, same, same, Bool.not_and, Bool.not_not, Bool.not_not]

theorem agrees_alarm (document : Json.Document) (path : Text) :
    Agrees (validateAlarm (represent document) path)
      (App.validateAlarm (decoded document : App.Value δ)) := by
  cases document with
  | object members =>
      rw [decoded_object]
      rw [validateAlarm, isObject_represent, Bool.not_true, if_neg Bool.false_ne_true]
      refine agrees_keys alarmNames (.refl alarmNames) fun present => ?_
      refine agrees_string "id" same_alarmId ?_
      refine agrees_string "label" (same_short kBodyMaximumLabelBytes) ?_
      refine agrees_boolean "enabled" ?_
      refine agrees_string "localTime" same_localTime ?_
      refine agrees_days ?_
      refine agrees_string "timezone" same_timezone ?_
      refine agrees_integer "snoozeMinutes" ?_
      refine agrees_integer "volume" ?_
      refine agrees_string "sound" (same_short kBodyMaximumSoundBytes) ?_
      refine agrees_string "source" same_source ?_
      exact agrees_sourceEventId (present _ (by decide))
  | _ => exact agrees_invalid

/-- A valid alarm has an id that both languages read. -/
theorem id_of_valid {document : Json.Document}
    (valid : App.validateAlarm (decoded document : App.Value δ) = .accepted) :
    ∃ chars, idText (represent document) = some (Utf8.encode chars) ∧
      App.alarmId (decoded document : App.Value δ) = Utf16.encode chars := by
  cases document with
  | object members =>
      have found : App.isString App.alarmIdPattern
          (App.index (members.map decodedEntry : App.Entries δ) (App.utf16 "id")) = true := by
        rw [decoded_object, App.validateAlarm] at valid
        by_contra unmatched
        rw [Bool.not_eq_true] at unmatched
        rw [unmatched, Bool.not_false, if_pos rfl, ite_self] at valid
        cases valid
      rw [idText, findMember_represent, decoded_object, App.alarmId]
      rw [index_decoded] at found ⊢
      cases id : member? members "id" with
      | none =>
          rw [id] at found
          cases found
      | some document =>
          rw [id] at found
          cases document with
          | string chars => exact ⟨chars, rfl, rfl⟩
          | _ => cases found
  | _ => cases valid

/-! ### Bodies -/

/-- The alarms in turn: both find all valid, or both reject the first that is not. -/
theorem agrees_alarms (documents : List Json.Document) (index : Nat) :
    Agrees (checkAlarms index (documents.map represent))
      (App.validateAlarms (documents.map decoded : List (App.Value δ))) := by
  induction documents generalizing index with
  | nil => exact agrees_ok
  | cons document documents ih =>
      rw [List.map_cons, List.map_cons, checkAlarms, App.validateAlarms]
      obtain ⟨passed, accepted⟩ | ⟨reason, path, failed, not_accepted, code⟩ :=
        @agrees_alarm δ document (childPath (utf8 "/alarms") (decimalText index))
      · rw [passed, accepted]
        exact ih (index + 1)
      · rw [failed, code]
        cases reason with
        | accepted => exact absurd rfl not_accepted
        | schemaInvalid => exact agrees_invalid
        | payloadSemanticError => exact agrees_semantic

/-- Alarms that have been accepted have ids that both languages read. -/
theorem ids_of_valid {documents : List Json.Document}
    (valid : App.validateAlarms (documents.map decoded : List (App.Value δ)) = .accepted) :
    ∃ ids : List (List Char), (documents.map represent).map idText =
        ids.map (fun id => some (Utf8.encode id)) ∧
      (documents.map decoded : List (App.Value δ)).map App.alarmId = ids.map Utf16.encode := by
  induction documents with
  | nil => exact ⟨[], rfl, rfl⟩
  | cons document documents ih =>
      rw [List.map_cons, App.validateAlarms] at valid
      cases accepted : App.validateAlarm (decoded document : App.Value δ) with
      | accepted =>
          rw [accepted] at valid
          obtain ⟨ids, bytes, units⟩ := ih valid
          obtain ⟨id, id_bytes, id_units⟩ := id_of_valid accepted
          refine ⟨id :: ids, ?_, ?_⟩
          · rw [List.map_cons, List.map_cons, List.map_cons, bytes, id_bytes]
          · rw [List.map_cons, List.map_cons, List.map_cons, units, id_units]
      | _ =>
          rw [accepted] at valid
          cases valid

theorem checkLater_ids {alarms : List JsonValue} {ids : List (List Char)} (id : List Char)
    (index : Nat) (texts : alarms.map idText = ids.map fun id => some (Utf8.encode id)) :
    (id ∉ ids → checkLater (Utf8.encode id) index alarms = .ok ()) ∧
    (id ∈ ids → ∃ path, checkLater (Utf8.encode id) index alarms =
      reject .payloadSemanticError path) := by
  induction alarms generalizing ids index with
  | nil =>
      cases ids with
      | nil => exact ⟨fun _ => rfl, nofun⟩
      | cons => cases texts
  | cons alarm alarms ih =>
      cases ids with
      | nil => cases texts
      | cons first ids =>
          obtain ⟨text, texts⟩ := List.cons.inj texts
          rw [checkLater, text, List.mem_cons, not_or]
          by_cases same : id = first
          · subst same
            rw [if_pos rfl]
            exact ⟨fun h => absurd rfl h.1, fun _ => ⟨_, rfl⟩⟩
          · have differ : ¬ some (Utf8.encode first) = some (Utf8.encode id) := by
              intro equal
              exact same (Utf8.encode_injective (Option.some.inj equal)).symm
            rw [if_neg differ]
            obtain ⟨fresh, again⟩ := ih (index + 1) texts
            exact ⟨fun h => fresh h.2, fun h => again (h.resolve_left same)⟩

/-- The pairs of alarms are searched for equal ids. -/
theorem checkDuplicates_ids {alarms : List JsonValue} {ids : List (List Char)} (index : Nat)
    (texts : alarms.map idText = ids.map fun id => some (Utf8.encode id)) :
    (ids.Nodup → checkDuplicates index alarms = .ok ()) ∧
    (¬ ids.Nodup → ∃ path, checkDuplicates index alarms = reject .payloadSemanticError path) := by
  induction alarms generalizing ids index with
  | nil =>
      cases ids with
      | nil => exact ⟨fun _ => rfl, fun h => absurd List.nodup_nil h⟩
      | cons => cases texts
  | cons alarm alarms ih =>
      cases ids with
      | nil => cases texts
      | cons first ids =>
          obtain ⟨text, texts⟩ := List.cons.inj texts
          obtain ⟨fresh, again⟩ := checkLater_ids first (index + 1) texts
          obtain ⟨distinct, repeated⟩ := ih (index + 1) texts
          rw [checkDuplicates, text, List.nodup_cons]
          by_cases mem : first ∈ ids
          · obtain ⟨path, failed⟩ := again mem
            refine ⟨fun h => absurd mem h.1, fun _ => ⟨path, ?_⟩⟩
            dsimp only
            rw [failed]
            rfl
          · dsimp only
            rw [fresh mem]
            exact ⟨fun h => distinct h.2, fun h => repeated fun nodup => h ⟨mem, nodup⟩⟩

theorem agrees_scheduleBody : Agrees (validateScheduleBody (represent (.object members)))
    (App.validateScheduleBody (members.map decodedEntry : App.Entries δ)) := by
  rw [validateScheduleBody, App.validateScheduleBody, findMember_represent, index_decoded]
  cases member? members "alarms" with
  | none => exact agrees_invalid
  | some document =>
      cases document with
      | array documents =>
          rw [Option.map_some, Option.map_some, Option.getD_some, represent_array, decoded_array]
          dsimp only
          rw [List.length_map, List.length_map]
          by_cases many : documents.length > kBodyMaximumAlarms
          · rw [if_pos many, if_pos (show documents.length > App.kMaxStoredAlarms from many)]
            exact agrees_semantic
          rw [if_neg many, if_neg (show ¬ documents.length > App.kMaxStoredAlarms from many)]
          obtain ⟨passed, accepted⟩ | ⟨reason, path, failed, not_accepted, code⟩ :=
            @agrees_alarms δ documents 0
          · obtain ⟨ids, bytes, units⟩ := ids_of_valid accepted
            obtain ⟨distinct, repeated⟩ := checkDuplicates_ids 0 bytes
            rw [passed, accepted, units]
            dsimp only
            by_cases nodup : ids.Nodup
            · have kept : ¬ ((ids.map Utf16.encode).dedup.length !=
                  (ids.map Utf16.encode).length) = true := by
                rw [(nodup.map Utf16.encode_injective).dedup, bne_self_eq_false]
                exact Bool.false_ne_true
              rw [if_neg kept]
              exact .inl ⟨distinct nodup, rfl⟩
            · have shorter : ((ids.map Utf16.encode).dedup.length !=
                  (ids.map Utf16.encode).length) = true := by
                rw [bne_iff_ne, ne_eq]
                intro same
                have whole := (List.dedup_sublist (ids.map Utf16.encode)).eq_of_length same
                exact nodup (List.Nodup.of_map _ (List.dedup_eq_self.mp whole))
              rw [if_pos shorter]
              obtain ⟨path, failed⟩ := repeated nodup
              exact .inr ⟨.payloadSemanticError, path, failed, by decide, rfl⟩
          · rw [failed, code]
            cases reason with
            | accepted => exact absurd rfl not_accepted
            | schemaInvalid => exact agrees_invalid
            | payloadSemanticError => exact agrees_semantic
      | _ => exact agrees_invalid

end Alarms

/-! ### Other bodies -/

section Bodies

variable {members : List (List Char × Json.Document)} {next : BodyCheck Unit}
  {code : ContractCode}

def errorCodes : List String :=
  ["invalid_protocol", "unknown_type", "invalid_message_id", "duplicate_message_id",
    "invalid_sent_at", "expected_revision_required", "envelope_too_large", "revision_conflict",
    "schema_invalid", "payload_semantic_error", "unauthorized", "rate_limited"]

theorem then_ok {check : BodyCheck Unit} : (check >>= fun _ => .ok ()) = check := by
  cases check with
  | error failure => rfl
  | ok => rfl

/-- A member that is checked if it is there. -/
theorem agrees_optional (name : String) {check : BodyCheck Unit} {invalid : Bool}
    (checked : Agrees check (if invalid then .schemaInvalid else code)) (rest : Agrees next code) :
    Agrees (if hasMember (represent (.object members)) (utf8 name) then check else next)
      (if App.containsKey (members.map decodedEntry : App.Entries δ) (App.utf16 name) &&
        invalid then .schemaInvalid else code) := by
  rw [hasMember_represent, containsKey_decoded]
  cases (member? members name).isSome with
  | false => exact rest
  | true => exact checked

theorem agrees_errorResponseBody : Agrees (validateErrorResponseBody (represent (.object members)))
    (App.validateErrorResponseBody (members.map decodedEntry : App.Entries δ)) := by
  have revision {check : Int64 → Bool} :
      Agrees (requireInteger (represent (.object members)) (utf8 "currentRevision") [] >>=
          fun value => ensure (check value) [] (utf8 "currentRevision"))
        (if !App.isInt check (App.index (members.map decodedEntry : App.Entries δ)
          (App.utf16 "currentRevision")) then .schemaInvalid else .accepted) := by
    have checked := @agrees_integer δ members [] (.ok ()) .accepted "currentRevision" check
      agrees_ok
    simp only [then_ok] at checked
    exact checked
  have allowed : ["code", "summary", "field", "retryable", "currentRevision"].Perm
      ["code", "summary", "retryable", "field", "currentRevision"] := by decide
  refine agrees_keys ["code", "summary", "retryable"] allowed fun _ => ?_
  refine agrees_string "code" (same_contains (.refl errorCodes)) ?_
  refine agrees_string "summary" (same_short kBodyMaximumSummaryBytes) ?_
  refine agrees_optional "field" (agrees_string "field" (same_bounded kBodyMaximumFieldBytes) ?_) ?_
  all_goals
    refine agrees_boolean "retryable" ?_
    exact agrees_optional "currentRevision" revision agrees_ok

theorem containsKey_eq :
    App.containsKey (members.map decodedEntry : App.Entries δ) ∘ App.utf16 =
      (App.keysOf (members.map decodedEntry : App.Entries δ)).contains ∘ App.utf16 := by
  funext name
  rw [Function.comp_apply, Function.comp_apply, containsKey_decoded, keysOf_contains]

/-- The keys a receipt must have; it may have others. -/
theorem agrees_present (names : List String) (rest : Agrees next code) :
    Agrees (checkMissingRequired (represent (.object members)) [] (names.map utf8) >>=
        fun _ => next)
      (if !(names.map App.utf16).all
          (App.containsKey (members.map decodedEntry : App.Entries δ)) then
        .schemaInvalid else code) := by
  have same : (names.map App.utf16).all
      (App.containsKey (members.map decodedEntry : App.Entries δ)) =
      (names.map utf8).all (hasMember (represent (.object members))) := by
    rw [@all_required δ, List.all_map, List.all_map, containsKey_eq]
  rw [same]
  have missing := @forEach_all (names.map utf8)
    (hasMember (represent (.object members))) (childPath [])
  exact agrees_step missing.1 missing.2 rest

theorem many_alarms {count : Int64} (nonneg : (!decide (count < 0)) = true) :
    count.toUInt64.toNat > kBodyMaximumAlarms ↔ count > Int64.ofNat App.kMaxStoredAlarms := by
  rw [Bool.not_eq_true', decide_eq_false_iff_not, Int64.not_lt] at nonneg
  have value : (count.toUInt64.toNat : Int) = count.toInt := by
    rw [Int64.toNat_toUInt64_of_le nonneg, Int64.toInt_eq_toNatClampNeg nonneg]
  rw [gt_iff_lt, gt_iff_lt, Int64.lt_iff_toInt_lt, ← value, ← Int.ofNat_lt]
  rfl

/-- The count of a receipt: an integer of at least zero, and one that the table holds. -/
theorem agrees_alarmCount (rest : Agrees next code) :
    Agrees (requireInteger (represent (.object members)) (utf8 "alarmCount") [] >>=
        fun alarmCount => ensure (!decide (alarmCount < 0)) [] (utf8 "alarmCount") >>= fun _ =>
          if alarmCount.toUInt64.toNat > kBodyMaximumAlarms then
            (reject .payloadSemanticError (utf8 "/alarmCount") : BodyCheck PUnit) >>= fun _ => next
          else next)
      (if !App.isInt (fun count => !decide (count < 0))
          (App.index (members.map decodedEntry : App.Entries δ) (App.utf16 "alarmCount")) then
        .schemaInvalid
      else if App.isInt (fun count => count > Int64.ofNat App.kMaxStoredAlarms)
          (App.index (members.map decodedEntry : App.Entries δ) (App.utf16 "alarmCount")) then
        .payloadSemanticError
      else code) := by
  rw [requireInteger, findMember_represent, index_decoded]
  cases member? members "alarmCount" with
  | none => exact agrees_invalid
  | some document =>
      cases document with
      | number value =>
          change Agrees (ensure (!decide (Int64.ofInt value < 0)) [] (utf8 "alarmCount") >>= fun _ =>
              if (Int64.ofInt value).toUInt64.toNat > kBodyMaximumAlarms then
                (reject .payloadSemanticError (utf8 "/alarmCount") : BodyCheck PUnit) >>=
                  fun _ => next
              else next)
            (if !(!decide (Int64.ofInt value < 0)) then .schemaInvalid
            else if decide (Int64.ofInt value > Int64.ofNat App.kMaxStoredAlarms) = true then
              .payloadSemanticError else code)
          cases nonneg : !decide (Int64.ofInt value < 0) with
          | false => exact agrees_invalid
          | true =>
              have same := many_alarms nonneg
              rw [Bool.not_true, if_neg Bool.false_ne_true]
              by_cases many : Int64.ofInt value > Int64.ofNat App.kMaxStoredAlarms
              · rw [if_pos (decide_eq_true many), ensure_true rfl]
                change Agrees (if (Int64.ofInt value).toUInt64.toNat > kBodyMaximumAlarms then
                  _ else next) _
                rw [if_pos (same.mpr many)]
                exact agrees_semantic
              · rw [if_neg (mt of_decide_eq_true many), ensure_true rfl]
                change Agrees (if (Int64.ofInt value).toUInt64.toNat > kBodyMaximumAlarms then
                  _ else next) _
                rw [if_neg (mt same.mp many)]
                exact rest
      | _ => exact agrees_invalid

theorem agrees_syncReceiptBody : Agrees (validateSyncReceiptBody (represent (.object members)))
    (App.validateSyncReceiptBody (members.map decodedEntry : App.Entries δ)) := by
  apply agrees_present ["appliedRevision", "alarmCount", "nextAlarmUtc"]
  apply agrees_integer "appliedRevision"
  apply agrees_alarmCount
  have checked := @agrees_string δ members [] (.ok ()) .accepted "nextAlarmUtc" _ _
    same_utcInstant agrees_ok
  simp only [then_ok] at checked
  exact checked

theorem validateBody_decoded (type : String) (document : Json.Document) :
    (validateProtocolMessageBody (represent document) (utf8 type)).code.inApp =
      App.validateBody (App.utf16 type) (decoded document : App.Value δ) := by
  cases document with
  | object members =>
      have same (name : String) : (utf8 type == utf8 name) =
          (App.utf16 type == App.utf16 name) := by
        rw [Bool.eq_iff_iff, beq_iff_eq, beq_iff_eq, utf8_inj, utf16_inj]
      have schedule : App.kRevisionRequiredTypes.contains (App.utf16 type) =
          (utf8 type == utf8 "schedule.preview" || utf8 type == utf8 "schedule.apply") := by
        rw [App.kRevisionRequiredTypes, List.contains_cons, List.contains_cons, List.contains_nil,
          Bool.or_false, same, same]
      rw [decoded_object, App.validateBody, schedule, ← same, ← same,
        validateProtocolMessageBody, isObject_represent, Bool.not_true,
        if_neg Bool.false_ne_true]
      split
      · exact agrees_scheduleBody.code_eq
      split
      · exact agrees_errorResponseBody.code_eq
      split
      · exact agrees_syncReceiptBody.code_eq
      · rfl
  | _ => rfl

end Bodies

/-- The text spells the document, within the bounds of the parser. -/
structure Spells (text : ByteCodec.Bytes) (document : Json.Document) : Prop where
  spelled : Json.Text 16 document text
  count : document.count ≤ 8192
  within : AllWithin document

/-- For a text that the firmware's parser accepts, app and firmware settle the body that it
spells with the same code, whatever the type of the message. -/
theorem body_parity (text : ByteCodec.Bytes) (value : JsonValue)
    (parsed : parseJson text = .ok value) :
    (∃ document, Spells text document) ∧ ∀ document, Spells text document →
      value = represent document ∧ ∀ type : String,
        App.validateBody (App.utf16 type) (decoded document : App.Value δ) =
          (validateProtocolMessageBody value (utf8 type)).code.inApp := by
  obtain ⟨nonempty, short, document, spelled, count, within, -⟩ :=
    (parseJson_ok_iff text value).mp parsed
  constructor
  · exact ⟨document, spelled, count, within⟩
  · intro other spells
    have read := (parseJson_ok_iff text (represent other)).mpr
      ⟨nonempty, short, other, spells.spelled, spells.count, spells.within, rfl⟩
    obtain rfl : value = represent other := Except.ok.inj (parsed.symm.trans read)
    exact ⟨rfl, fun type => (validateBody_decoded type other).symm⟩

/-- An alarm with the label. -/
def alarmLabelled (label : List Char) : Json.Document :=
  .object [("id".toList, .string ['a']), ("label".toList, .string label),
    ("enabled".toList, .boolean true), ("localTime".toList, .string "07:00".toList),
    ("days".toList, .array [.number 1]), ("timezone".toList, .string "UTC".toList),
    ("snoozeMinutes".toList, .number 1), ("volume".toList, .number 0),
    ("sound".toList, .string ['a']), ("source".toList, .string "ics".toList),
    ("sourceEventId".toList, .null)]

def bodyLabelled (label : List Char) : Json.Document :=
  .object [("alarms".toList, .array [alarmLabelled label])]

/-- Its text. -/
def bodyText (label : List Char) : ByteCodec.Bytes :=
  0x7b :: utf8 "\"alarms\":[" ++ 0x7b :: utf8 "\"id\":\"a\",\"label\":\"" ++
    Utf8.encode label ++ utf8 ("\",\"enabled\":true,\"localTime\":\"07:00\",\"days\":[1]," ++
      "\"timezone\":\"UTC\",\"snoozeMinutes\":1,\"volume\":0,\"sound\":\"a\"," ++
      "\"source\":\"ics\",\"sourceEventId\":null") ++ [0x7d, 0x5d, 0x7d]

set_option maxRecDepth 20000 in
/-- One alarm. -/
theorem body_parity_labelled :
    parseJson (bodyText ['a']) = .ok (represent (bodyLabelled ['a'])) ∧
      (validateProtocolMessageBody (represent (bodyLabelled ['a']))
        (utf8 "schedule.preview")).accepted = true ∧
      (∃ document, Spells (bodyText ['a']) document) ∧
      ∀ document, Spells (bodyText ['a']) document →
        represent (bodyLabelled ['a']) = represent document ∧
          ∀ type : String, App.validateBody (App.utf16 type) (decoded document : App.Value Unit) =
            (validateProtocolMessageBody (represent (bodyLabelled ['a']))
              (utf8 type)).code.inApp := by
  have parsed : parseJson (bodyText ['a']) = .ok (represent (bodyLabelled ['a'])) := rfl
  have accepted : (validateProtocolMessageBody (represent (bodyLabelled ['a']))
      (utf8 "schedule.preview")).accepted = true := by
    decide +kernel
  exact ⟨parsed, accepted, body_parity _ _ parsed⟩

end DawnDock
