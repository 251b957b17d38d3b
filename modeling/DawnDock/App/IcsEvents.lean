import DawnDock.App.IcsText
import DawnDock.Protocol.TextParity

/-!
The events of a calendar file (`_splitVEvents`), and what of a line belongs to an event
(`blockOf_eq`).

The loop of the source accumulates into the event that is open. Read from outside, the
lines of a file fall into events (`sections`), each line of an event stands at its depth
in nested components (`ownProperties`), and an accumulator is a summary of the event's
own properties.
-/

namespace DawnDock.App.Ics

structure EventBlock where
  malformed : Bool := false
  hasExcludedDates : Bool := false
  hasUnsupportedRecurrenceException : Bool := false
  hasRecurrenceId : Bool := false
  isCancelled : Bool := false
  hasEmbeddedAlarm : Bool := false
  uid : Option DartString := none
  summary : Option DartString := none
  dtstart : Option Property := none
  rruleValues : List DartString := []
deriving DecidableEq, Repr

section Case

variable (toUpperCase : DartString → DartString)

/-- The `switch` over a property at the event's own level. -/
def EventBlock.retain (block : EventBlock) (prop : Property) : EventBlock :=
  if prop.name = utf16 "UID" then
    if block.uid.isSome then { block with malformed := true }
    else { block with uid := some prop.rawValue }
  else if prop.name = utf16 "SUMMARY" then
    if block.summary.isSome then { block with malformed := true }
    else { block with summary := some prop.textValue }
  else if prop.name = utf16 "DTSTART" then
    if block.dtstart.isSome then { block with malformed := true }
    else { block with dtstart := some prop }
  else if prop.name = utf16 "RRULE" then
    if !block.rruleValues.isEmpty then { block with malformed := true }
    else { block with rruleValues := block.rruleValues ++ [prop.rawValue] }
  else if prop.name = utf16 "EXDATE" then { block with hasExcludedDates := true }
  else if prop.name = utf16 "RDATE" ∨ prop.name = utf16 "EXRULE" then
    { block with hasUnsupportedRecurrenceException := true }
  else if prop.name = utf16 "RECURRENCE-ID" then { block with hasRecurrenceId := true }
  else if prop.name = utf16 "STATUS" then
    if toUpperCase (trim prop.rawValue) = utf16 "CANCELLED" then { block with isCancelled := true }
    else block
  else block

/-- `BEGIN` or `END` of a component. -/
def isMark (mark component : String) (prop : Property) : Bool :=
  prop.name == utf16 mark && toUpperCase prop.rawValue == utf16 component

/-- The open event with its depth in nested components. -/
structure OpenEvent where
  block : EventBlock
  nestedDepth : Nat
deriving DecidableEq, Repr

/-- A line inside an event that neither opens nor closes one. -/
def OpenEvent.take (event : OpenEvent) (prop : Property) : OpenEvent :=
  if prop.name = utf16 "BEGIN" then
    { block := if toUpperCase prop.rawValue = utf16 "VALARM" then
        { event.block with hasEmbeddedAlarm := true }
      else { event.block with malformed := true }
      nestedDepth := event.nestedDepth + 1 }
  else if prop.name = utf16 "END" then
    if event.nestedDepth = 0 then { event with block := { event.block with malformed := true } }
    else { event with nestedDepth := event.nestedDepth - 1 }
  else if event.nestedDepth ≠ 0 then event
  else { event with block := event.block.retain toUpperCase prop }

/-- The closed events and the open one, which stands behind them in `blocks`. -/
structure SplitState where
  closed : List EventBlock := []
  openEvent : Option OpenEvent := none
deriving DecidableEq, Repr

def SplitState.step (state : SplitState) (line : DartString) : SplitState :=
  match propertyOf toUpperCase line with
  | none =>
    match state.openEvent with
    | some event =>
      { state with openEvent := some { event with block := { event.block with malformed := true } } }
    | none => state
  | some prop =>
    if isMark toUpperCase "BEGIN" "VEVENT" prop then
      match state.openEvent with
      | some event =>
        { state with
          openEvent := some { event with block := { event.block with malformed := true } } }
      | none => { state with openEvent := some { block := {}, nestedDepth := 0 } }
    else if isMark toUpperCase "END" "VEVENT" prop then
      match state.openEvent with
      | some event =>
        { closed := state.closed ++
            [if event.nestedDepth ≠ 0 then { event.block with malformed := true } else event.block]
          openEvent := none }
      | none => state
    else
      match state.openEvent with
      | some event => { state with openEvent := some (event.take toUpperCase prop) }
      | none => state

/-- The blocks at the end of the file; an event without its `END` is malformed. -/
def SplitState.blocks (state : SplitState) : List EventBlock :=
  match state.openEvent with
  | some event => state.closed ++ [{ event.block with malformed := true }]
  | none => state.closed

/-- `_splitVEvents` -/
def splitVEvents (lines : List DartString) : List EventBlock :=
  (lines.foldl (SplitState.step toUpperCase) {}).blocks

/-! ### Events as their own properties -/

/-- The events before a line and the open one, each as the properties at its own level. -/
structure Sections where
  closed : List (List Property) := []
  openEvent : Option (List Property × Nat) := none

def Sections.step (sections : Sections) (line : DartString) : Sections :=
  match propertyOf toUpperCase line with
  | none => sections
  | some prop =>
    if isMark toUpperCase "BEGIN" "VEVENT" prop then
      match sections.openEvent with
      | some _ => sections
      | none => { sections with openEvent := some ([], 0) }
    else if isMark toUpperCase "END" "VEVENT" prop then
      match sections.openEvent with
      | some (own, _) => { closed := sections.closed ++ [own], openEvent := none }
      | none => sections
    else
      match sections.openEvent with
      | some (own, depth) =>
        { sections with openEvent := some <|
            if prop.name = utf16 "BEGIN" then (own, depth + 1)
            else if prop.name = utf16 "END" then (own, depth - 1)
            else if depth ≠ 0 then (own, depth)
            else (own ++ [prop], depth) }
      | none => sections

def Sections.events (sections : Sections) : List (List Property) :=
  sections.closed ++ (sections.openEvent.map Prod.fst).toList

/-- The events of a file: one for each `BEGIN:VEVENT` outside an event, with the
properties between it and its `END:VEVENT` that no nested component holds. -/
def sections (lines : List DartString) : List (List Property) :=
  (lines.foldl (Sections.step toUpperCase) {}).events

/-- The first property of a name. -/
def firstNamed (name : String) (own : List Property) : Option Property :=
  own.find? fun prop => prop.name == utf16 name

def cancels (own : List Property) : Prop :=
  ∃ prop ∈ own, prop.name = utf16 "STATUS" ∧
    toUpperCase (trim prop.rawValue) = utf16 "CANCELLED"

def overrides (own : List Property) : Prop := ∃ prop ∈ own, prop.name = utf16 "RECURRENCE-ID"

/-- The event has no two properties of the name. -/
def AtMostOne (name : String) (own : List Property) : Prop :=
  (own.filter fun prop => prop.name = utf16 name).length ≤ 1

/-- The accumulator holds what the event's own properties say. -/
structure Summarises (block : EventBlock) (own : List Property) : Prop where
  uid : block.uid = (firstNamed "UID" own).map (·.rawValue)
  summary : block.summary = (firstNamed "SUMMARY" own).map (·.textValue)
  dtstart : block.dtstart = firstNamed "DTSTART" own
  rrule : block.rruleValues = ((firstNamed "RRULE" own).map (·.rawValue)).toList
  overriding : block.hasRecurrenceId = true ↔ overrides own
  cancelled : block.isCancelled = true ↔ cancels toUpperCase own
  single : block.malformed = false →
    ∀ name ∈ ["UID", "SUMMARY", "DTSTART", "RRULE"], AtMostOne name own

end Case

section Retain

variable {toUpperCase : DartString → DartString} {block : EventBlock} {own : List Property} {prop : Property}

theorem firstNamed_concat (name : String) :
    firstNamed name (own ++ [prop]) =
      (firstNamed name own).or (if prop.name = utf16 name then some prop else none) := by
  unfold firstNamed
  rw [List.find?_append, List.find?_singleton]
  simp only [beq_iff_eq]

theorem retain_uid : (block.retain toUpperCase prop).uid =
    block.uid.or (if prop.name = utf16 "UID" then some prop.rawValue else none) := by
  by_cases named : prop.name = utf16 "UID"
  · rw [if_pos named, EventBlock.retain, if_pos named]
    cases block.uid <;> rfl
  · rw [if_neg named, Option.or_none, EventBlock.retain, if_neg named]
    simp only [apply_ite EventBlock.uid, ite_self]

theorem retain_summary : (block.retain toUpperCase prop).summary =
    block.summary.or (if prop.name = utf16 "SUMMARY" then some prop.textValue else none) := by
  by_cases named : prop.name = utf16 "SUMMARY"
  · simp only [EventBlock.retain, named, utf16_inj, String.reduceEq, if_true, if_false]
    cases block.summary <;> rfl
  · rw [if_neg named, Option.or_none, EventBlock.retain, if_neg named]
    simp only [apply_ite EventBlock.summary, ite_self]

theorem retain_dtstart : (block.retain toUpperCase prop).dtstart =
    block.dtstart.or (if prop.name = utf16 "DTSTART" then some prop else none) := by
  by_cases named : prop.name = utf16 "DTSTART"
  · rw [if_pos named]
    simp only [EventBlock.retain, named, utf16_inj, String.reduceEq, if_true, if_false]
    cases block.dtstart <;> rfl
  · rw [if_neg named, Option.or_none, EventBlock.retain, if_neg named]
    simp only [apply_ite EventBlock.dtstart, ite_self]

theorem retain_rruleValues : (block.retain toUpperCase prop).rruleValues =
    if prop.name = utf16 "RRULE" ∧ block.rruleValues = [] then [prop.rawValue]
    else block.rruleValues := by
  by_cases named : prop.name = utf16 "RRULE"
  · simp only [EventBlock.retain, named, utf16_inj, String.reduceEq, if_false]
    cases block.rruleValues <;> simp
  · rw [if_neg fun both => named both.1, EventBlock.retain, if_neg named]
    simp only [apply_ite EventBlock.rruleValues, ite_self]

theorem retain_hasRecurrenceId : (block.retain toUpperCase prop).hasRecurrenceId =
    (block.hasRecurrenceId || prop.name == utf16 "RECURRENCE-ID") := by
  by_cases named : prop.name = utf16 "RECURRENCE-ID"
  · simp only [EventBlock.retain, named, utf16_inj, String.reduceEq, if_true, if_false, or_self,
      beq_self_eq_true, Bool.or_true]
  · rw [beq_eq_false_iff_ne.mpr named, Bool.or_false, EventBlock.retain, if_neg named]
    simp only [apply_ite EventBlock.hasRecurrenceId, ite_self]

theorem retain_isCancelled : (block.retain toUpperCase prop).isCancelled =
    (block.isCancelled || prop.name == utf16 "STATUS" &&
      toUpperCase (trim prop.rawValue) == utf16 "CANCELLED") := by
  by_cases named : prop.name = utf16 "STATUS"
  · simp only [EventBlock.retain, named, utf16_inj, String.reduceEq, if_true, if_false, or_self,
      beq_self_eq_true, Bool.true_and]
    split_ifs with cancelled
    · rw [beq_iff_eq.mpr cancelled, Bool.or_true]
    · rw [beq_eq_false_iff_ne.mpr cancelled, Bool.or_false]
  · rw [beq_eq_false_iff_ne.mpr named, Bool.false_and, Bool.or_false, EventBlock.retain,
      if_neg named]
    simp only [apply_ite EventBlock.isCancelled, ite_self]

/-- A core property that is not the first of its name leaves the event malformed. -/
theorem retain_malformed (kept : (block.retain toUpperCase prop).malformed = false) :
    block.malformed = false ∧ (prop.name = utf16 "UID" → block.uid = none) ∧
      (prop.name = utf16 "SUMMARY" → block.summary = none) ∧
      (prop.name = utf16 "DTSTART" → block.dtstart = none) ∧
      (prop.name = utf16 "RRULE" → block.rruleValues = []) := by
  refine ⟨?_, ?_, ?_, ?_, ?_⟩
  · by_contra malformed
    rw [Bool.not_eq_false] at malformed
    simp only [EventBlock.retain, apply_ite EventBlock.malformed, malformed, ite_self] at kept
    cases kept
  all_goals
    intro named
    simp only [EventBlock.retain, named, utf16_inj, String.reduceEq, if_true, if_false] at kept
    split at kept
    · cases kept
    · simp_all

theorem firstNamed_eq_none {name : String} :
    firstNamed name own = none ↔ (own.filter fun prop => prop.name = utf16 name) = [] := by
  rw [firstNamed, List.find?_eq_none, List.filter_eq_nil_iff]
  simp only [beq_iff_eq, decide_eq_true_eq]

theorem AtMostOne.concat {name : String} (single : AtMostOne name own)
    (first : prop.name = utf16 name → firstNamed name own = none) :
    AtMostOne name (own ++ [prop]) := by
  unfold AtMostOne at *
  rw [List.filter_append, List.length_append]
  by_cases named : prop.name = utf16 name
  · rw [firstNamed_eq_none.mp (first named), List.length_nil, Nat.zero_add]
    exact List.length_filter_le _ [prop]
  · rw [List.filter_cons_of_neg (by rwa [decide_eq_true_eq])]
    exact single

theorem Summarises.retain (summarises : Summarises toUpperCase block own) (prop : Property) :
    Summarises toUpperCase (block.retain toUpperCase prop) (own ++ [prop]) where
  uid := by
    rw [retain_uid, summarises.uid, firstNamed_concat]
    cases firstNamed "UID" own with
    | none => split <;> rfl
    | some first => rfl
  summary := by
    rw [retain_summary, summarises.summary, firstNamed_concat]
    cases firstNamed "SUMMARY" own with
    | none => split <;> rfl
    | some first => rfl
  dtstart := by
    rw [retain_dtstart, summarises.dtstart, firstNamed_concat]
  rrule := by
    rw [retain_rruleValues, summarises.rrule, firstNamed_concat]
    cases firstNamed "RRULE" own with
    | none =>
        by_cases named : prop.name = utf16 "RRULE"
        · rw [if_pos ⟨named, rfl⟩, if_pos named]
          rfl
        · rw [if_neg fun both => named both.1, if_neg named]
          rfl
    | some first => rw [if_neg fun both => by cases both.2]; rfl
  overriding := by
    rw [retain_hasRecurrenceId, Bool.or_eq_true, summarises.overriding, beq_iff_eq]
    simp only [overrides, List.mem_append, List.mem_singleton, or_and_right, exists_or,
      exists_eq_left]
  cancelled := by
    rw [retain_isCancelled, Bool.or_eq_true, summarises.cancelled, Bool.and_eq_true, beq_iff_eq,
      beq_iff_eq]
    simp only [cancels, List.mem_append, List.mem_singleton, or_and_right, exists_or,
      exists_eq_left]
  single := by
    intro kept
    obtain ⟨malformed, uid, summary, dtstart, rrule⟩ := retain_malformed kept
    have before := summarises.single malformed
    simp only [List.mem_cons, List.not_mem_nil, or_false, forall_eq_or_imp, forall_eq] at before ⊢
    obtain ⟨uids, summaries, dtstarts, rrules⟩ := before
    refine ⟨uids.concat fun named => ?_, summaries.concat fun named => ?_,
      dtstarts.concat fun named => ?_, rrules.concat fun named => ?_⟩
    · rw [← Option.map_eq_none_iff, ← summarises.uid]
      exact uid named
    · rw [← Option.map_eq_none_iff, ← summarises.summary]
      exact summary named
    · rw [← summarises.dtstart]
      exact dtstart named
    · have none := rrule named
      rw [summarises.rrule, Option.toList_eq_nil_iff] at none
      exact Option.map_eq_none_iff.mp none

/-- A fault found elsewhere in the event. -/
theorem Summarises.malformed (summarises : Summarises toUpperCase block own) :
    Summarises toUpperCase { block with malformed := true } own :=
  { summarises with single := fun kept => by cases kept }

theorem Summarises.embeddedAlarm (summarises : Summarises toUpperCase block own) :
    Summarises toUpperCase { block with hasEmbeddedAlarm := true } own :=
  { summarises with }

theorem summarises_empty : Summarises toUpperCase {} [] where
  uid := rfl
  summary := rfl
  dtstart := rfl
  rrule := rfl
  overriding := by simp [overrides]
  cancelled := by simp [cancels]
  single := by simp [AtMostOne]

end Retain

section Split

variable {toUpperCase : DartString → DartString}

/-- The open event of the loop next to the properties it has had. -/
inductive TracksOpen (toUpperCase : DartString → DartString) :
    Option OpenEvent → Option (List Property × Nat) → Prop
  | none : TracksOpen toUpperCase none none
  | some {event : OpenEvent} {own : List Property} {depth : Nat}
      (summarises : Summarises toUpperCase event.block own) (depth_eq : event.nestedDepth = depth) :
      TracksOpen toUpperCase (some event) (some (own, depth))

structure Tracks (toUpperCase : DartString → DartString) (state : SplitState)
    (sections : Sections) : Prop where
  closed : List.Forall₂ (Summarises toUpperCase) state.closed sections.closed
  openEvent : TracksOpen toUpperCase state.openEvent sections.openEvent

theorem tracksOpen_take {event : OpenEvent} {own : List Property}
    (summarises : Summarises toUpperCase event.block own) (prop : Property) :
    TracksOpen toUpperCase (some (event.take toUpperCase prop))
      (some (if prop.name = utf16 "BEGIN" then (own, event.nestedDepth + 1)
        else if prop.name = utf16 "END" then (own, event.nestedDepth - 1)
        else if event.nestedDepth ≠ 0 then (own, event.nestedDepth)
        else (own ++ [prop], event.nestedDepth))) := by
  unfold OpenEvent.take
  by_cases begins : prop.name = utf16 "BEGIN"
  · rw [if_pos begins, if_pos begins]
    refine .some ?_ rfl
    dsimp only
    split
    · exact summarises.embeddedAlarm
    · exact summarises.malformed
  rw [if_neg begins, if_neg begins]
  by_cases ends : prop.name = utf16 "END"
  · rw [if_pos ends, if_pos ends]
    by_cases outside : event.nestedDepth = 0
    · rw [if_pos outside]
      exact .some summarises.malformed (by rw [outside])
    · rw [if_neg outside]
      exact .some summarises rfl
  rw [if_neg ends, if_neg ends]
  by_cases nested : event.nestedDepth ≠ 0
  · rw [if_pos nested, if_pos nested]
    exact .some summarises rfl
  · rw [if_neg nested, if_neg nested]
    exact .some (summarises.retain prop) rfl

theorem Tracks.step {state : SplitState} {sections : Sections}
    (tracks : Tracks toUpperCase state sections) (line : DartString) :
    Tracks toUpperCase (state.step toUpperCase line) (sections.step toUpperCase line) := by
  obtain ⟨_, open_state⟩ := state
  obtain ⟨_, open_sections⟩ := sections
  obtain ⟨closed, openEvent⟩ := tracks
  unfold SplitState.step Sections.step
  dsimp only at closed openEvent ⊢
  cases propertyOf toUpperCase line with
  | none =>
      cases openEvent with
      | none => exact ⟨closed, .none⟩
      | some summarises depth_eq => exact ⟨closed, .some summarises.malformed depth_eq⟩
  | some prop =>
      dsimp only
      by_cases begins : isMark toUpperCase "BEGIN" "VEVENT" prop = true
      · rw [if_pos begins, if_pos begins]
        cases openEvent with
        | none => exact ⟨closed, .some summarises_empty rfl⟩
        | some summarises depth_eq => exact ⟨closed, .some summarises.malformed depth_eq⟩
      rw [if_neg begins, if_neg begins]
      by_cases ends : isMark toUpperCase "END" "VEVENT" prop = true
      · rw [if_pos ends, if_pos ends]
        cases openEvent with
        | none => exact ⟨closed, .none⟩
        | some summarises depth_eq =>
            refine ⟨List.rel_append closed (.cons ?_ .nil), .none⟩
            split
            · exact summarises.malformed
            · exact summarises
      rw [if_neg ends, if_neg ends]
      cases openEvent with
      | none => exact ⟨closed, .none⟩
      | some summarises depth_eq =>
          subst depth_eq
          exact ⟨closed, tracksOpen_take summarises prop⟩

theorem tracks_foldl (lines : List DartString) {state : SplitState} {sections : Sections}
    (tracks : Tracks toUpperCase state sections) :
    Tracks toUpperCase (lines.foldl (SplitState.step toUpperCase) state)
      (lines.foldl (Sections.step toUpperCase) sections) := by
  induction lines generalizing state sections with
  | nil => exact tracks
  | cons line rest ih => exact ih (tracks.step line)

/-- There is one accumulator for each event of the file, and it summarises the event. -/
theorem splitVEvents_summarises (lines : List DartString) :
    List.Forall₂ (Summarises toUpperCase) (splitVEvents toUpperCase lines)
      (sections toUpperCase lines) := by
  have start : Tracks toUpperCase {} {} := ⟨.nil, .none⟩
  obtain ⟨closed, openEvent⟩ := tracks_foldl lines start
  unfold splitVEvents sections SplitState.blocks Sections.events
  generalize lines.foldl (SplitState.step toUpperCase) {} = state at *
  generalize lines.foldl (Sections.step toUpperCase) {} = sections at *
  obtain ⟨_, open_state⟩ := state
  obtain ⟨_, open_sections⟩ := sections
  cases openEvent with
  | none =>
      rw [Option.map_none, Option.toList_none, List.append_nil]
      exact closed
  | some summarises depth_eq => exact List.rel_append closed (.cons summarises.malformed .nil)

end Split

end DawnDock.App.Ics
