import DawnDock.App.IcsImport
import Mathlib.Order.Interval.Finset.Nat

/-!
The loop of `importIcsSuggestions` over the events of a file.

Each event has its turn (`turns`): the notes on it and the draft it gives, with the ids of
the turns before taken. The result is read off the turns (`importBlocks_eq`): all notes in
order, the first drafts up to the cap, and the numbers of the events behind it. No two
drafts share an id (`draftIds_nodup`).
-/

namespace DawnDock.App.Ics

/-- What the loop makes of one event. -/
structure Turn where
  eventNumber : Nat
  block : EventBlock
  notes : List Note
  draft : Option AlarmDraft

def Turn.notices (turn : Turn) : List ImportNotice := turn.notes.map (Note.about turn.eventNumber)

/-- The draft with the number of its event. -/
def Turn.numbered (turn : Turn) : Option (Nat × AlarmDraft) :=
  turn.draft.map fun draft => (turn.eventNumber, draft)

section Case

variable (toUpperCase : DartString → DartString) (groups : UidGroups)

def turns (usedIds : List DartString) (eventNumber : Nat) : List EventBlock → List Turn
  | [] => []
  | block :: rest =>
    let turn := draftForEvent toUpperCase groups block usedIds
    { eventNumber, block, notes := turn.1, draft := turn.2.1 } ::
      turns turn.2.2 (eventNumber + 1) rest

variable {toUpperCase groups}

/-- The loop adds the notes and drafts of the turns to what it starts with. -/
theorem importEvents_eq (blocks : List EventBlock) (state : ImportState) (eventNumber : Nat) :
    let result := importEvents toUpperCase groups state eventNumber blocks
    let drafts := (turns toUpperCase groups state.usedIds eventNumber blocks).filterMap
      Turn.numbered
    let room := kMaxStoredAlarms - state.suggestions.length
    result.notices = state.notices ++
        (turns toUpperCase groups state.usedIds eventNumber blocks).flatMap Turn.notices ∧
      result.suggestions = state.suggestions ++ (drafts.take room).map Prod.snd ∧
      result.droppedByCapacity = state.droppedByCapacity ++ (drafts.drop room).map Prod.fst := by
  induction blocks generalizing state eventNumber with
  | nil => simp [importEvents, turns]
  | cons block rest ih =>
      unfold importEvents turns
      obtain ⟨notes, draft, usedIds⟩ := draftForEvent toUpperCase groups block state.usedIds
      dsimp only
      rw [List.flatMap_cons, List.filterMap_cons]
      cases draft with
      | none =>
          obtain ⟨notices, suggestions, dropped⟩ := ih { state with
            notices := state.notices ++ notes.map (Note.about eventNumber), usedIds }
            (eventNumber + 1)
          refine ⟨?_, suggestions, dropped⟩
          rw [notices, List.append_assoc]
          rfl
      | some draft =>
          by_cases full : state.suggestions.length ≥ kMaxStoredAlarms
          · simp only [if_pos full]
            obtain ⟨notices, suggestions, dropped⟩ := ih { state with
              notices := state.notices ++ notes.map (Note.about eventNumber), usedIds
              droppedByCapacity := state.droppedByCapacity ++ [eventNumber] } (eventNumber + 1)
            have no_room : kMaxStoredAlarms - state.suggestions.length = 0 := by omega
            rw [no_room] at suggestions dropped ⊢
            refine ⟨?_, suggestions, ?_⟩
            · rw [notices, List.append_assoc]
              rfl
            · rw [dropped, List.append_assoc]
              rfl
          · simp only [if_neg full]
            obtain ⟨notices, suggestions, dropped⟩ := ih { state with
              notices := state.notices ++ notes.map (Note.about eventNumber), usedIds
              suggestions := state.suggestions ++ [draft] } (eventNumber + 1)
            obtain ⟨room, room_eq⟩ : ∃ room, kMaxStoredAlarms - state.suggestions.length = room + 1 :=
              ⟨_, (Nat.succ_pred (by omega)).symm⟩
            have less : kMaxStoredAlarms - (state.suggestions ++ [draft]).length = room := by
              rw [List.length_append, List.length_singleton]
              omega
            rw [less] at suggestions dropped
            rw [room_eq]
            refine ⟨?_, ?_, dropped⟩
            · rw [notices, List.append_assoc]
              rfl
            · rw [suggestions, List.append_assoc]
              rfl

/-- The turns of a file. -/
def fileTurns (toUpperCase : DartString → DartString) (blocks : List EventBlock) : List Turn :=
  turns toUpperCase (groupUids blocks) [] 1 blocks

theorem importBlocks_eq (blocks : List EventBlock) :
    let drafts := (fileTurns toUpperCase blocks).filterMap Turn.numbered
    importBlocks toUpperCase blocks =
      { suggestions := (drafts.take kMaxStoredAlarms).map Prod.snd
        notices := (fileTurns toUpperCase blocks).flatMap Turn.notices ++
          capacityNotice ((drafts.drop kMaxStoredAlarms).map Prod.fst) } := by
  obtain ⟨notices, suggestions, dropped⟩ :=
    @importEvents_eq toUpperCase (groupUids blocks) blocks {} 1
  unfold importBlocks fileTurns
  dsimp only at *
  rw [notices, suggestions, dropped]
  rfl

/-! ### Turns and events -/

theorem turns_blocks (usedIds : List DartString) (eventNumber : Nat) (blocks : List EventBlock) :
    (turns toUpperCase groups usedIds eventNumber blocks).map Turn.block = blocks := by
  induction blocks generalizing usedIds eventNumber with
  | nil => rfl
  | cons block rest ih => exact congrArg (block :: ·) (ih ..)

theorem turns_numbers (usedIds : List DartString) (eventNumber : Nat) (blocks : List EventBlock) :
    (turns toUpperCase groups usedIds eventNumber blocks).map Turn.eventNumber =
      List.range' eventNumber blocks.length := by
  induction blocks generalizing usedIds eventNumber with
  | nil => rfl
  | cons block rest ih => exact congrArg (eventNumber :: ·) (ih ..)

/-- A turn is what `draftForEvent` returns. -/
theorem exists_usedIds {usedIds : List DartString} {eventNumber : Nat} {blocks : List EventBlock}
    {turn : Turn} (mem : turn ∈ turns toUpperCase groups usedIds eventNumber blocks) :
    ∃ taken after, draftForEvent toUpperCase groups turn.block taken =
      (turn.notes, turn.draft, after) := by
  induction blocks generalizing usedIds eventNumber with
  | nil => cases mem
  | cons block rest ih =>
      rcases List.mem_cons.mp mem with rfl | later
      · exact ⟨usedIds, _, rfl⟩
      · exact ih later

end Case

/-! ### Ids -/

/-- Reading the digits of a suffix back. -/
theorem intText_inj {m n : Nat} (same : intText m = intText n) : m = n := by
  have toChars (value : Nat) :
      (intText value).map (fun unit => Char.ofNat unit.toNat) = Nat.toDigits 10 value := by
    rw [intText, if_neg (by omega), Int.natAbs_natCast, asciiUnits, List.map_map]
    refine (List.map_congr_left fun c digit => ?_).trans (List.map_id _)
    have isDigit := Nat.isDigit_of_mem_toDigits (by omega) (by omega) digit
    simp only [Char.isDigit, Bool.and_eq_true, decide_eq_true_eq] at isDigit
    have high : c.toNat ≤ 57 := isDigit.2
    simp only [Function.comp, UInt16.toNat_ofNat', id]
    rw [Nat.mod_eq_of_lt (by omega), Char.ofNat_toNat]
  have digits : Nat.toDigits 10 m = Nat.toDigits 10 n := by rw [← toChars, same, toChars]
  rw [← Nat.ofDigitChars_ten_toDigits (n := m), digits, Nat.ofDigitChars_ten_toDigits]

theorem idFor_injective (hex : DartString) : Function.Injective (idFor hex) := by
  intro first second same
  have tails := List.append_cancel_left same
  by_cases one : first = 1
  · by_cases other : second = 1
    · rw [one, other]
    · rw [if_pos one, if_neg other] at tails
      cases tails
  · by_cases other : second = 1
    · rw [if_neg one, if_pos other] at tails
      cases tails
    · rw [if_neg one, if_neg other] at tails
      exact intText_inj (List.cons.inj tails).2

/-- The search ends on an unused id unless it has passed a used one in every round. -/
theorem nextSuffix_passed (hex : DartString) (usedIds : List DartString) (suffix rounds : Nat) :
    let chosen := nextSuffix hex usedIds suffix rounds
    idFor hex chosen ∉ usedIds ∨ chosen = suffix + rounds ∧
      ∀ passed, suffix ≤ passed → passed < suffix + rounds → idFor hex passed ∈ usedIds := by
  induction rounds generalizing suffix with
  | zero =>
      right
      constructor
      · rfl
      · intro passed low high
        omega
  | succ rounds ih =>
      dsimp only [nextSuffix]
      by_cases used : idFor hex suffix ∈ usedIds
      · rw [if_pos (List.contains_iff_mem.mpr used)]
        rcases ih (suffix + 1) with unused | ⟨chosen, passed_used⟩
        · exact .inl unused
        · right
          constructor
          · omega
          · intro passed low high
            rcases Nat.eq_or_lt_of_le low with rfl | later
            · exact used
            · exact passed_used passed later (by omega)
      · rw [if_neg fun contained => used (List.contains_iff_mem.mp contained)]
        exact .inl used

/-- As many used ids as rounds cannot be passed and one more be used. -/
theorem nextSuffix_unused (hex : DartString) (usedIds : List DartString) :
    idFor hex (nextSuffix hex usedIds 1 usedIds.length) ∉ usedIds := by
  intro used
  rcases nextSuffix_passed hex usedIds 1 usedIds.length with unused | ⟨chosen, passed_used⟩
  · exact unused used
  rw [chosen] at used
  have maps : ∀ suffix ∈ Finset.Icc 1 (usedIds.length + 1), idFor hex suffix ∈ usedIds.toFinset := by
    intro suffix mem
    obtain ⟨low, high⟩ := Finset.mem_Icc.mp mem
    rw [List.mem_toFinset]
    rcases Nat.eq_or_lt_of_le high with rfl | before
    · rwa [Nat.add_comm]
    · exact passed_used suffix low (by omega)
  have fits := Finset.card_le_card_of_injOn _ maps (idFor_injective hex).injOn
  rw [Nat.card_Icc] at fits
  have room := usedIds.toFinset_card_le
  omega

section Ids

variable {toUpperCase : DartString → DartString} {groups : UidGroups}

theorem constructDraft_fields {fields : AlarmFields} {draft : AlarmDraft}
    (built : constructDraft fields = some draft) : draft.toAlarmFields = fields := by
  unfold constructDraft at built
  split at built
  · rw [← Option.some.inj built]
  · cases built

/-- A draft comes from an event that passes every check, and takes an id that is free. -/
structure Built (toUpperCase : DartString → DartString) (groups : UidGroups) (block : EventBlock)
    (usedIds : List DartString) (startNotes dayNotes : List Note) (start : StartInfo)
    (days : Finset Int64) (uid : DartString) (draft : AlarmDraft) : Prop where
  kept : dropReason groups block = none
  named : block.uid = some uid
  parsed : parseDtstart toUpperCase block.dtstart = (startNotes, some start)
  ruled : daysFromRrule toUpperCase block.rruleValues.head? (Int64.ofNat start.weekdayIso) =
    (dayNotes, some days)
  fields : draft.toAlarmFields =
    fieldsFor (chooseId uid usedIds).2 (labelFor block.summary).2 start days uid

/-- What the checks on the block leave. -/
theorem dropReason_eq_none {block : EventBlock} (kept : dropReason groups block = none) :
    block.hasRecurrenceId = false ∧ block.isCancelled = false ∧ block.malformed = false ∧
      ∃ uid, block.uid = some uid ∧ uid ≠ [] ∧ utf8Length uid ≤ kMaxSourceEventIdBytes ∧
        uid ∉ groups.overriddenUids ∧ uid ∉ groups.cancelledUids ∧ groups.uidCounts uid ≤ 1 := by
  unfold dropReason at kept
  simp only [ite_eq_iff, reduceCtorEq, and_false, false_or, Bool.or_eq_true, not_or,
    Bool.not_eq_true] at kept
  obtain ⟨override, cancel, duplicate, -, malformed, -, -, named⟩ := kept
  cases uid_eq : block.uid with
  | none =>
      rw [uid_eq] at named
      cases named
  | some uid =>
      rw [uid_eq] at override cancel duplicate named
      simp only [ite_eq_iff, reduceCtorEq, and_false, false_or, Option.any_some,
        List.contains_eq_mem, decide_eq_false_iff_not, List.isEmpty_iff, not_lt, and_true]
        at override cancel duplicate named
      exact ⟨override.1, cancel.1, malformed, uid, rfl, named.1, named.2, override.2, cancel.2,
        duplicate⟩

theorem draftForEvent_some {block : EventBlock} {usedIds after : List DartString}
    {notes : List Note} {draft : AlarmDraft}
    (run : draftForEvent toUpperCase groups block usedIds = (notes, some draft, after)) :
    ∃ startNotes dayNotes start days uid,
      Built toUpperCase groups block usedIds startNotes dayNotes start days uid draft ∧
        notes = startNotes ++ dayNotes ++ (labelFor block.summary).1 ++ (chooseId uid usedIds).1 ∧
        after = draft.id :: usedIds := by
  unfold draftForEvent at run
  cases kept : dropReason groups block with
  | some code =>
      rw [kept] at run
      cases run
  | none =>
      obtain ⟨-, -, -, uid, named, -⟩ := dropReason_eq_none kept
      rw [kept] at run
      dsimp only [buildDraft] at run
      rw [named] at run
      cases parsed : parseDtstart toUpperCase block.dtstart with
      | mk startNotes start =>
      rw [parsed] at run
      cases start with
      | none => cases run
      | some start =>
          dsimp only at run
          cases ruled : daysFromRrule toUpperCase block.rruleValues.head?
            (Int64.ofNat start.weekdayIso) with
          | mk dayNotes days =>
          rw [ruled] at run
          cases days with
          | none => cases run
          | some days =>
              dsimp only [Option.getD_some] at run
              split at run
              · cases run
              · rename_i built
                cases run
                have fields := constructDraft_fields built
                refine ⟨startNotes, dayNotes, start, days, uid,
                  ⟨kept, named, parsed, ruled, fields⟩, rfl, ?_⟩
                rw [congrArg AlarmFields.id fields]
                rfl

/-! An event without a draft is noted. -/

theorem zoneOfTime_none {tzidParam : Option DartString} {zulu : Bool} {notes : List Note}
    (refused : zoneOfTime toUpperCase tzidParam zulu = (notes, none)) : notes ≠ [] := by
  unfold zoneOfTime at refused
  rintro rfl
  split at refused
  · split at refused <;> cases refused
  · split_ifs at refused <;> cases refused

theorem startInfo_none {notes after : List Note} {timezone : DartString}
    {year month day hour minute : Nat}
    (refused : startInfo notes timezone year month day hour minute = (after, none)) :
    after ≠ [] := by
  unfold startInfo at refused
  split at refused
  · cases refused
    exact List.concat_ne_nil _ _
  · cases refused

theorem parseDtstart_none {dtstart : Option Property} {notes : List Note}
    (refused : parseDtstart toUpperCase dtstart = (notes, none)) : notes ≠ [] := by
  unfold parseDtstart at refused
  cases dtstart with
  | none =>
      cases refused
      exact List.cons_ne_nil _ _
  | some prop =>
      dsimp only at refused
      split at refused
      · split_ifs at refused
        · cases refused
          exact List.cons_ne_nil _ _
        · cases refused
          exact List.cons_ne_nil _ _
        · split at refused
          · rename_i zone
            cases refused
            exact zoneOfTime_none zone
          · exact startInfo_none refused
      · split at refused
        · cases refused
          exact List.cons_ne_nil _ _
        · exact startInfo_none refused
      · split at refused
        · cases refused
          exact List.cons_ne_nil _ _
        · exact startInfo_none refused
      · cases refused
        exact List.cons_ne_nil _ _

theorem daysFromRrule_none {rule : Option DartString} {weekday : Int64} {notes : List Note}
    (refused : daysFromRrule toUpperCase rule weekday = (notes, none)) : notes ≠ [] := by
  unfold daysFromRrule at refused
  rintro rfl
  cases rule with
  | none => cases refused
  | some rule =>
      dsimp only at refused
      split at refused
      · cases refused
      · unfold ruleDays at refused
        split at refused
        · cases refused
        · split_ifs at refused <;> cases refused

theorem draftForEvent_none {block : EventBlock} {usedIds after : List DartString}
    {notes : List Note}
    (run : draftForEvent toUpperCase groups block usedIds = (notes, none, after)) :
    notes ≠ [] ∧ usedIds ⊆ after := by
  unfold draftForEvent at run
  cases kept : dropReason groups block with
  | some code =>
      rw [kept] at run
      cases run
      exact ⟨List.cons_ne_nil _ _, List.Subset.refl _⟩
  | none =>
      rw [kept] at run
      dsimp only [buildDraft] at run
      cases parsed : parseDtstart toUpperCase block.dtstart with
      | mk startNotes start =>
      rw [parsed] at run
      cases start with
      | none =>
          cases run
          exact ⟨parseDtstart_none parsed, List.Subset.refl _⟩
      | some start =>
          dsimp only at run
          cases ruled : daysFromRrule toUpperCase block.rruleValues.head?
            (Int64.ofNat start.weekdayIso) with
          | mk dayNotes days =>
          rw [ruled] at run
          cases days with
          | none =>
              cases run
              refine ⟨fun empty => ?_, List.Subset.refl _⟩
              exact daysFromRrule_none ruled (List.append_eq_nil_iff.mp empty).2
          | some days =>
              dsimp only at run
              split at run
              · cases run
                exact ⟨List.concat_ne_nil _ _, List.subset_cons_self _ _⟩
              · cases run

/-- The drafts of the turns have ids of their own. -/
theorem draftIds_nodup (blocks : List EventBlock) (usedIds : List DartString) (eventNumber : Nat) :
    let ids := ((turns toUpperCase groups usedIds eventNumber blocks).filterMap Turn.draft).map
      fun draft => draft.id
    ids.Nodup ∧ ∀ id ∈ ids, id ∉ usedIds := by
  induction blocks generalizing usedIds eventNumber with
  | nil => exact ⟨.nil, fun id mem => by cases mem⟩
  | cons block rest ih =>
      dsimp only [turns]
      cases run : draftForEvent toUpperCase groups block usedIds with
      | mk notes outcome =>
      obtain ⟨draft, after⟩ := outcome
      obtain ⟨nodup, fresh⟩ := ih after (eventNumber + 1)
      cases draft with
      | none =>
          obtain ⟨-, kept⟩ := draftForEvent_none run
          rw [List.filterMap_cons]
          exact ⟨nodup, fun id mem used => fresh id mem (kept used)⟩
      | some draft =>
          obtain ⟨_, _, _, _, uid, built, -, rfl⟩ := draftForEvent_some run
          rw [List.filterMap_cons]
          dsimp only
          rw [List.map_cons]
          constructor
          · rw [List.nodup_cons]
            exact ⟨fun again => fresh _ again List.mem_cons_self, nodup⟩
          · intro id mem used
            rcases List.mem_cons.mp mem with rfl | later
            · rw [congrArg AlarmFields.id built.fields] at used
              exact nextSuffix_unused _ _ used
            · exact fresh id later (List.mem_cons_of_mem _ used)

end Ids

end DawnDock.App.Ics
