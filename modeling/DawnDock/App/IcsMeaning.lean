import DawnDock.App.IcsRule
import DawnDock.App.IcsRun
import DawnDock.App.IcsStart
import Mathlib.Data.List.NodupEquivFin

/-!
What a suggestion says of its event.

A suggestion keeps the time, the weekdays and the zone of the event (`KeepsMeaning`), and
its event stands alone in the file: no other event has its UID (`kept_alone`).
-/

namespace DawnDock.App.Ics

variable {toUpperCase : DartString → DartString}

/-! ### Events by their place in the file -/

/-- An event of the file with its accumulator. -/
theorem summarised {lines : List DartString} {i : Nat} {block : EventBlock}
    (placed : (splitVEvents toUpperCase lines)[i]? = some block) :
    ∃ own, (sections toUpperCase lines)[i]? = some own ∧ Summarises toUpperCase block own := by
  obtain ⟨lengths, related⟩ :=
    List.forall₂_iff_get.mp (@splitVEvents_summarises toUpperCase lines)
  obtain ⟨inside, rfl⟩ := List.getElem?_eq_some_iff.mp placed
  exact ⟨_, List.getElem?_eq_getElem (lengths ▸ inside), related i inside (lengths ▸ inside)⟩

theorem summarised' {lines : List DartString} {i : Nat} {own : List Property}
    (placed : (sections toUpperCase lines)[i]? = some own) :
    ∃ block, (splitVEvents toUpperCase lines)[i]? = some block ∧
      Summarises toUpperCase block own := by
  obtain ⟨lengths, related⟩ :=
    List.forall₂_iff_get.mp (@splitVEvents_summarises toUpperCase lines)
  obtain ⟨inside, rfl⟩ := List.getElem?_eq_some_iff.mp placed
  exact ⟨_, List.getElem?_eq_getElem (lengths ▸ inside), related i (lengths ▸ inside) inside⟩

/-- A turn stands at the place of its event. -/
theorem turn_placed {blocks : List EventBlock} {turn : Turn}
    (mem : turn ∈ fileTurns toUpperCase blocks) :
    ∃ i, turn.eventNumber = i + 1 ∧ blocks[i]? = some turn.block := by
  obtain ⟨i, at_i⟩ := List.mem_iff_getElem?.mp mem
  have block_at : blocks[i]? = some turn.block := by
    rw [← turns_blocks [] 1 blocks, List.getElem?_map]
    exact congrArg (Option.map Turn.block) at_i
  refine ⟨i, ?_, block_at⟩
  have number_at : (List.range' 1 blocks.length)[i]? = some turn.eventNumber := by
    rw [← turns_numbers [] 1 blocks, List.getElem?_map]
    exact congrArg (Option.map Turn.eventNumber) at_i
  obtain ⟨inside, number⟩ := List.getElem?_eq_some_iff.mp number_at
  rw [List.getElem_range'] at number
  omega

/-! ### One event for a UID -/

/-- Two events of one UID are counted twice. -/
theorem eq_of_uidCounts {blocks : List EventBlock} {uid : DartString} {i j : Nat}
    {first second : EventBlock} (once : (groupUids blocks).uidCounts uid ≤ 1)
    (first_at : blocks[i]? = some first) (second_at : blocks[j]? = some second)
    (first_uid : first.groupUid = some uid) (second_uid : second.groupUid = some uid) : i = j := by
  have count_eq : (groupUids blocks).uidCounts uid =
      (blocks.map EventBlock.groupUid).count (some uid) := by
    rw [List.count_eq_countP, List.countP_map]
    exact List.count_filterMap
  have distinct {k l : Nat} (before : k < l)
      (at_k : (blocks.map EventBlock.groupUid)[k]? = some (some uid))
      (at_l : (blocks.map EventBlock.groupUid)[l]? = some (some uid)) : False := by
    obtain ⟨inside, value⟩ := List.getElem?_eq_some_iff.mp at_k
    obtain ⟨inside', value'⟩ := List.getElem?_eq_some_iff.mp at_l
    have duplicate := List.duplicate_iff_exists_distinct_get.mpr
      ⟨⟨k, inside⟩, ⟨l, inside'⟩, before, value.symm, value'.symm⟩
    have twice := (List.duplicate_iff_sublist.mp duplicate).count_le (some uid)
    rw [← count_eq, List.count_cons_self, List.count_cons_self] at twice
    omega
  have at_i : (blocks.map EventBlock.groupUid)[i]? = some (some uid) := by
    rw [List.getElem?_map, first_at, Option.map_some, first_uid]
  have at_j : (blocks.map EventBlock.groupUid)[j]? = some (some uid) := by
    rw [List.getElem?_map, second_at, Option.map_some, second_uid]
  rcases Nat.lt_trichotomy i j with before | same | behind
  · exact absurd at_j (distinct before at_i)
  · exact same
  · exact absurd at_i (distinct behind at_j)

theorem groupUid_eq {block : EventBlock} {uid : DartString} (named : block.uid = some uid)
    (nonempty : uid ≠ []) : block.groupUid = some uid := by
  rw [EventBlock.groupUid, named, Option.filter_some, if_pos]
  rwa [Bool.not_eq_true', List.isEmpty_eq_false_iff]

/-- The UID of an event. -/
def eventUid (own : List Property) : Option DartString := (firstNamed "UID" own).map (·.rawValue)

/-- No event of the file cancels, overrides or duplicates one that gives a draft. -/
theorem kept_alone {lines : List DartString} {i : Nat} {block : EventBlock}
    (kept : dropReason (groupUids (splitVEvents toUpperCase lines)) block = none)
    (placed : (splitVEvents toUpperCase lines)[i]? = some block) :
    ∃ uid, block.uid = some uid ∧ ∀ j other, (sections toUpperCase lines)[j]? = some other →
      eventUid other = some uid → j = i ∧ ¬ cancels toUpperCase other ∧ ¬ overrides other := by
  obtain ⟨-, -, -, uid, named, nonempty, -, override, cancel, once⟩ := dropReason_eq_none kept
  refine ⟨uid, named, fun j other other_at other_uid => ?_⟩
  obtain ⟨second, second_at, summarises⟩ := summarised' other_at
  have second_uid : second.groupUid = some uid :=
    groupUid_eq (summarises.uid.trans other_uid) nonempty
  have listed := List.mem_of_getElem? second_at
  refine ⟨eq_of_uidCounts once second_at placed second_uid (groupUid_eq named nonempty), ?_, ?_⟩
  · intro cancels
    apply cancel
    have flagged := summarises.cancelled.mpr cancels
    exact List.mem_filterMap.mpr ⟨second, List.mem_filter.mpr ⟨listed, flagged⟩, second_uid⟩
  · intro overrides
    apply override
    have flagged := summarises.overriding.mpr overrides
    exact List.mem_filterMap.mpr ⟨second, List.mem_filter.mpr ⟨listed, flagged⟩, second_uid⟩

/-! ### Suggestions -/

/-- The notices have the code for the event of the number. -/
def Noted (notices : List ImportNotice) (number : Nat) (code : NoticeCode) : Prop :=
  ∃ notice ∈ notices, notice.code = code ∧ notice.eventNumber = some number

/-- The weekdays of the draft are those of the event's rule; without a rule the weekday of
its date, which is noted. -/
def KeepsDays (toUpperCase : DartString → DartString) (rrule : Option Property) (start : Int)
    (noted : NoticeCode → Prop) (days : Finset Int64) : Prop :=
  rrule = none ∧ maskDays days = {Calendar.weekday start} ∧ noted .singleOccurrenceWeekly ∨
    ∃ prop parts rule, rrule = some prop ∧ ruleParts prop.rawValue = some parts ∧
      Denotes toUpperCase parts rule ∧ rule.interval = 1 ∧ rule.bounded = false ∧
      maskDays days = rule.weekdays start ∧
      (rule.frequency = .weekly → rule.byDay = none → noted .singleOccurrenceWeekly)

/-- The draft says what the event says, which has one property of each kind that is read. -/
structure KeepsMeaning (toUpperCase : DartString → DartString) (own : List Property)
    (noted : NoticeCode → Prop) (draft : AlarmDraft) : Prop where
  single : ∀ name ∈ ["UID", "SUMMARY", "DTSTART", "RRULE"], AtMostOne name own
  uid : ∃ uid, eventUid own = some uid ∧ draft.provenance.map (·.sourceEventId) = some uid
  start : ∃ dtstart, firstNamed "DTSTART" own = some dtstart ∧ ∃ date hour minute,
    StartsAt (trim dtstart.rawValue) date hour minute ∧
    draft.localHour.toInt = hour ∧ draft.localMinute.toInt = minute ∧
    KeepsDays toUpperCase (firstNamed "RRULE" own) date.dayNumber noted draft.days ∧
    (NamesZone toUpperCase dtstart draft.timezone ∨ ∃ code ∈ zoneCodes, noted code)

/-- A turn with a draft keeps the meaning of its event. -/
theorem turn_keepsMeaning {groups : UidGroups} {block : EventBlock} {own : List Property}
    {usedIds after : List DartString} {notes : List Note} {draft : AlarmDraft}
    {noted : NoticeCode → Prop} (summarises : Summarises toUpperCase block own)
    (run : draftForEvent toUpperCase groups block usedIds = (notes, some draft, after))
    (about : ∀ note ∈ notes, noted note.code) : KeepsMeaning toUpperCase own noted draft := by
  obtain ⟨startNotes, dayNotes, start, days, uid, built, rfl, -⟩ := draftForEvent_some run
  obtain ⟨-, -, intact, -⟩ := dropReason_eq_none built.kept
  obtain ⟨dtstart, first, date, starts, hours, minutes, iso, zoned⟩ :=
    parseDtstart_reads built.parsed
  have iso_range := RecurrenceRule.weekday_mem date.dayNumber
  have iso_eq : (Int64.ofNat start.weekdayIso).toInt = Calendar.weekday date.dayNumber + 1 := by
    rw [Int64.toInt_ofNat_of_lt (by omega), iso]
  constructor
  case single => exact summarises.single intact
  case uid =>
    refine ⟨uid, summarises.uid.symm.trans built.named, ?_⟩
    rw [built.fields]
    rfl
  case start =>
    refine ⟨dtstart, summarises.dtstart.symm.trans first, date, start.hour, start.minute, starts,
      ?_, ?_, ?_, ?_⟩
    · rw [built.fields]
      exact Int64.toInt_ofNat_of_lt (by omega)
    · rw [built.fields]
      exact Int64.toInt_ofNat_of_lt (by omega)
    · rw [built.fields]
      have rule_eq : block.rruleValues.head? = (firstNamed "RRULE" own).map (·.rawValue) := by
        rw [summarises.rrule]
        cases firstNamed "RRULE" own <;> rfl
      have single : { code := .singleOccurrenceWeekly } ∈ dayNotes →
          noted .singleOccurrenceWeekly := by
        intro mem
        apply about { code := .singleOccurrenceWeekly }
        simp only [List.mem_append, mem, or_true, true_or]
      have ruled := built.ruled
      rw [rule_eq] at ruled
      rcases daysFromRrule_some iso_eq ruled with ⟨absent, mask, mem⟩ |
        ⟨text, parts, rule, present, read, denotes, one, endless, mask, weekly⟩
      · exact .inl ⟨Option.map_eq_none_iff.mp absent, mask, single mem⟩
      · obtain ⟨prop, first, rfl⟩ := Option.map_eq_some_iff.mp present
        exact .inr ⟨prop, parts, rule, first, read, denotes, one, endless, mask,
          fun is_weekly unnamed => single (weekly is_weekly unnamed)⟩
    · rw [built.fields]
      rcases zoned with named | ⟨note, mem, code⟩
      · exact .inl named
      · refine .inr ⟨note.code, code, about note ?_⟩
        simp only [List.mem_append, mem, true_or]

/-- The blocks of an import that is not refused. -/
theorem blocks_of_import {text : DartString} {result : ImportResult}
    (imported : importIcsSuggestions toUpperCase text = .ok result) :
    result = importBlocks toUpperCase (splitVEvents toUpperCase (unfold text)) := by
  unfold importIcsSuggestions at imported
  split at imported
  · cases imported
  dsimp only at imported
  split at imported
  · cases imported
  split at imported
  · cases imported
  · exact (Except.ok.inj imported).symm

/-- A suggestion is the draft of a turn. -/
theorem turn_of_suggestion {blocks : List EventBlock} {draft : AlarmDraft}
    (suggested : draft ∈ (importBlocks toUpperCase blocks).suggestions) :
    ∃ turn ∈ fileTurns toUpperCase blocks, turn.draft = some draft := by
  rw [importBlocks_eq] at suggested
  obtain ⟨numbered, mem, rfl⟩ := List.mem_map.mp suggested
  obtain ⟨turn, listed, named⟩ := List.mem_filterMap.mp (List.mem_of_mem_take mem)
  obtain ⟨draft, has, rfl⟩ := Option.map_eq_some_iff.mp named
  exact ⟨turn, listed, has⟩

theorem noted_of_turn {blocks : List EventBlock} {turn : Turn} {note : Note}
    (listed : turn ∈ fileTurns toUpperCase blocks) (mem : note ∈ turn.notes) :
    Noted (importBlocks toUpperCase blocks).notices turn.eventNumber note.code := by
  rw [importBlocks_eq]
  refine ⟨note.about turn.eventNumber, ?_, rfl, rfl⟩
  apply List.mem_append_left
  exact List.mem_flatMap.mpr ⟨turn, listed, List.mem_map.mpr ⟨note, mem, rfl⟩⟩

/-- Every suggestion says what its event says, and its event is the only one of its UID and
neither cancelled nor overridden. -/
theorem import_keeps_meaning {text : DartString} {result : ImportResult}
    (imported : importIcsSuggestions toUpperCase text = .ok result) {draft : AlarmDraft}
    (suggested : draft ∈ result.suggestions) :
    ∃ i own, (sections toUpperCase (unfold text))[i]? = some own ∧
      KeepsMeaning toUpperCase own (Noted result.notices (i + 1)) draft ∧
      ∀ j other, (sections toUpperCase (unfold text))[j]? = some other →
        eventUid other = eventUid own →
        j = i ∧ ¬ cancels toUpperCase other ∧ ¬ overrides other := by
  rw [blocks_of_import imported] at suggested ⊢
  obtain ⟨turn, listed, has⟩ := turn_of_suggestion suggested
  obtain ⟨i, number, placed⟩ := turn_placed listed
  obtain ⟨own, own_at, summarises⟩ := summarised placed
  obtain ⟨taken, after, run⟩ := exists_usedIds listed
  rw [has] at run
  have about : ∀ note ∈ turn.notes, Noted _ (i + 1) note.code :=
    fun note mem => number ▸ noted_of_turn listed mem
  obtain ⟨_, _, _, _, _, built, -, -⟩ := draftForEvent_some run
  obtain ⟨uid, named, alone⟩ := kept_alone built.kept placed
  refine ⟨i, own, own_at, turn_keepsMeaning summarises run about, ?_⟩
  intro j other other_at same
  have own_uid : eventUid own = some uid := summarises.uid.symm.trans named
  exact alone j other other_at (same.trans own_uid)

section Sample

/-- `toUpperCase` on ASCII text. -/
def asciiUpper (text : DartString) : DartString :=
  text.map fun unit => if lower unit then unit - 0x20 else unit

def weeklySample : DartString :=
  utf16 "BEGIN:VCALENDAR\nBEGIN:VEVENT\nUID:a\nDTSTART;TZID=Europe/Berlin:20260314T093000\n" ++
    utf16 "RRULE:FREQ=WEEKLY;BYDAY=MO\nEND:VEVENT"

theorem weeklySample_suggests : ∃ result, importIcsSuggestions asciiUpper weeklySample = .ok result ∧
    ∃ draft, draft ∈ result.suggestions := by
  have imported : ((importIcsSuggestions asciiUpper weeklySample).toOption.any fun result =>
      !result.suggestions.isEmpty) = true := by
    decide +kernel
  cases run : importIcsSuggestions asciiUpper weeklySample with
  | error issue =>
      rw [run] at imported
      cases imported
  | ok result =>
      rw [run] at imported
      obtain ⟨draft, rest, suggestions⟩ := List.exists_cons_of_ne_nil
        (List.isEmpty_eq_false_iff.mp ((Bool.not_eq_true' _).mp imported))
      exact ⟨result, rfl, draft, suggestions ▸ List.mem_cons_self⟩

theorem weeklySample_keeps_meaning :
    ∃ result, importIcsSuggestions asciiUpper weeklySample = .ok result ∧
      ∃ draft ∈ result.suggestions, ∃ i own,
        (sections asciiUpper (unfold weeklySample))[i]? = some own ∧
        KeepsMeaning asciiUpper own (Noted result.notices (i + 1)) draft := by
  obtain ⟨result, imported, draft, suggested⟩ := weeklySample_suggests
  obtain ⟨i, own, own_at, keeps, -⟩ := import_keeps_meaning imported suggested
  exact ⟨result, imported, draft, suggested, i, own, own_at, keeps⟩

end Sample

end DawnDock.App.Ics
