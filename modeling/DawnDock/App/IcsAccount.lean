import DawnDock.App.DeviceScheduleStore
import DawnDock.App.IcsMeaning

/-!
The calendar import as a whole: the suggestions can be sent as they are, and no event of
the file is lost on the way (`import_accounts`).
-/

namespace DawnDock.App

/-- `on ArgumentError` catches the error. -/
def DartError.IsArgumentError : DartError → Prop
  | .argumentError _ | .argumentValue _ _ => True
  | _ => False

/-- A draft's constructor throws nothing but argument errors. -/
theorem AlarmFields.validate_throws {fields : AlarmFields} {error : DartError}
    (thrown : fields.validate = .error error) : error.IsArgumentError := by
  unfold AlarmFields.validate at thrown
  split_ifs at thrown
  all_goals
    cases thrown
    trivial

namespace Ics

variable {toUpperCase : DartString → DartString}

/-! ### Events of a file -/

/-- The lines `BEGIN:VEVENT` outside an open event. -/
def eventsOpened (toUpperCase : DartString → DartString) (inside : Bool) : List DartString → Nat
  | [] => 0
  | line :: rest =>
    match propertyOf toUpperCase line with
    | none => eventsOpened toUpperCase inside rest
    | some prop =>
      if isMark toUpperCase "BEGIN" "VEVENT" prop then
        (if inside then 0 else 1) + eventsOpened toUpperCase true rest
      else if isMark toUpperCase "END" "VEVENT" prop then eventsOpened toUpperCase false rest
      else eventsOpened toUpperCase inside rest

theorem length_events_foldl (lines : List DartString) (state : Sections) :
    ((lines.foldl (Sections.step toUpperCase) state).events).length =
      state.events.length + eventsOpened toUpperCase state.openEvent.isSome lines := by
  induction lines generalizing state with
  | nil => rfl
  | cons line rest ih =>
      rw [List.foldl_cons, ih]
      conv_rhs => rw [eventsOpened]
      obtain ⟨closed, openEvent⟩ := state
      unfold Sections.step
      cases propertyOf toUpperCase line with
      | none => rfl
      | some prop =>
          dsimp only
          by_cases begins : isMark toUpperCase "BEGIN" "VEVENT" prop = true
          · simp only [begins, if_true]
            cases openEvent with
            | none =>
                rw [← Nat.add_assoc]
                simp [Sections.events]
            | some event =>
                rw [← Nat.add_assoc]
                rfl
          simp only [begins]
          by_cases ends : isMark toUpperCase "END" "VEVENT" prop = true
          · simp only [ends, if_true]
            cases openEvent with
            | none => rfl
            | some event => simp [Sections.events]
          · simp only [ends]
            cases openEvent with
            | none => rfl
            | some event => simp [Sections.events]

/-- Each of these lines has its event. -/
theorem length_sections (lines : List DartString) :
    (sections toUpperCase lines).length = eventsOpened toUpperCase false lines := by
  rw [sections, length_events_foldl]
  exact Nat.zero_add _

/-! ### Numbered drafts -/

/-- The drafts of a file with the numbers of their events. -/
def numberedDrafts (toUpperCase : DartString → DartString) (blocks : List EventBlock) :
    List (Nat × AlarmDraft) :=
  (fileTurns toUpperCase blocks).filterMap Turn.numbered

theorem numbers_sorted (blocks : List EventBlock) :
    ((numberedDrafts toUpperCase blocks).map Prod.fst).Pairwise (· < ·) := by
  have sublist (turns : List Turn) :
      ((turns.filterMap Turn.numbered).map Prod.fst).Sublist (turns.map Turn.eventNumber) := by
    induction turns with
    | nil => exact .slnil
    | cons turn rest ih =>
        rw [List.filterMap_cons, List.map_cons]
        unfold Turn.numbered
        cases turn.draft with
        | none => exact ih.cons _
        | some draft => exact ih.cons_cons _
  have sorted := @List.pairwise_lt_range' 1 blocks.length 1 (by omega)
  rw [← turns_numbers [] 1 blocks] at sorted
  exact sorted.sublist (sublist _)

theorem ids_distinct (blocks : List EventBlock) :
    ((numberedDrafts toUpperCase blocks).map fun numbered => numbered.2.id).Nodup := by
  have drafts : (numberedDrafts toUpperCase blocks).map Prod.snd =
      (fileTurns toUpperCase blocks).filterMap Turn.draft := by
    rw [numberedDrafts, List.map_filterMap]
    congr
    funext turn
    unfold Turn.numbered
    cases turn.draft <;> rfl
  have nodup := (@draftIds_nodup toUpperCase (groupUids blocks) blocks [] 1).1
  rw [← fileTurns, ← drafts, List.map_map] at nodup
  exact nodup

/-! ### The account -/

/-- The draft is the suggestion of the event with the number. -/
def Suggested (events : List (List Property)) (number : Nat) (draft : AlarmDraft) : Prop :=
  ∃ i own, number = i + 1 ∧ events[i]? = some own ∧
    eventUid own = draft.provenance.map (·.sourceEventId)

/-- What becomes of the event with the number: a suggestion, a notice, or the notice of the
cap, behind as many suggestions as there can be. -/
def AccountedFor (result : ImportResult) (numbers : List Nat) (number : Nat) : Prop :=
  number ∈ numbers ∨
    (∃ notice ∈ result.notices, notice.eventNumber = some number) ∨
    result.suggestions.length = kMaxStoredAlarms ∧ (∀ earlier ∈ numbers, earlier < number) ∧
      ∃ notice ∈ result.notices, notice.code = .capacityTruncated ∧
        ∃ first ≤ number, notice.eventNumber = some first

structure Accounts (events : List (List Property)) (result : ImportResult) : Prop where
  fits : result.suggestions.length ≤ kMaxStoredAlarms
  ids : (result.suggestions.map (·.id)).Nodup
  sendable : ∀ δ, validateScheduleBody (proposalBody result.suggestions : Entries δ) = .accepted
  account : ∃ numbers : List Nat, numbers.Pairwise (· < ·) ∧
    List.Forall₂ (Suggested events) numbers result.suggestions ∧
    ∀ number, 1 ≤ number → number ≤ events.length → AccountedFor result numbers number

theorem suggested_of_numbered {lines : List DartString} {numbered : Nat × AlarmDraft}
    (mem : numbered ∈ numberedDrafts toUpperCase (splitVEvents toUpperCase lines)) :
    Suggested (sections toUpperCase lines) numbered.1 numbered.2 ∧ numbered.2.EventIdFits := by
  obtain ⟨turn, listed, named⟩ := List.mem_filterMap.mp mem
  obtain ⟨draft, has, rfl⟩ := Option.map_eq_some_iff.mp named
  obtain ⟨i, number, placed⟩ := turn_placed listed
  obtain ⟨own, own_at, summarises⟩ := summarised placed
  obtain ⟨taken, after, run⟩ := exists_usedIds listed
  rw [has] at run
  obtain ⟨_, _, _, _, uid, built, -, -⟩ := draftForEvent_some run
  obtain ⟨-, -, -, uid', named', -, short, -⟩ := dropReason_eq_none built.kept
  obtain rfl := Option.some.inj (named'.symm.trans built.named)
  have provenance : draft.provenance = some { sourceEventId := uid', originLabel := utf16 "ics" } := by
    rw [built.fields]
    rfl
  constructor
  · refine ⟨i, own, number, own_at, ?_⟩
    rw [provenance]
    exact summarises.uid.symm.trans built.named
  · intro carried mem
    rw [provenance] at mem
    cases mem
    exact short

/-- An event has its turn, and its turn is a draft or a note. -/
theorem turn_of_number {blocks : List EventBlock} {number : Nat} (positive : 1 ≤ number)
    (inside : number ≤ blocks.length) :
    (∃ draft, (number, draft) ∈ numberedDrafts toUpperCase blocks) ∨
      ∃ notice ∈ (importBlocks toUpperCase blocks).notices, notice.eventNumber = some number := by
  have mem : number ∈ (fileTurns toUpperCase blocks).map Turn.eventNumber := by
    rw [fileTurns, turns_numbers, List.mem_range'_1]
    omega
  obtain ⟨turn, listed, rfl⟩ := List.mem_map.mp mem
  obtain ⟨taken, after, run⟩ := exists_usedIds listed
  cases has : turn.draft with
  | some draft =>
      refine .inl ⟨draft, List.mem_filterMap.mpr ⟨turn, listed, ?_⟩⟩
      rw [Turn.numbered, has]
      rfl
  | none =>
      rw [has] at run
      obtain ⟨note, noted⟩ := List.exists_mem_of_ne_nil _ (draftForEvent_none run).1
      obtain ⟨notice, kept, -, about⟩ := noted_of_turn listed noted
      exact .inr ⟨notice, kept, about⟩

/-- A draft behind the cap is announced by the notice of the first such. -/
theorem announced_of_dropped {blocks : List EventBlock} {number : Nat} {draft : AlarmDraft}
    (mem : (number, draft) ∈ (numberedDrafts toUpperCase blocks).drop kMaxStoredAlarms) :
    (importBlocks toUpperCase blocks).suggestions.length = kMaxStoredAlarms ∧
      (∀ earlier ∈ ((numberedDrafts toUpperCase blocks).take kMaxStoredAlarms).map Prod.fst,
        earlier < number) ∧
      ∃ notice ∈ (importBlocks toUpperCase blocks).notices, notice.code = .capacityTruncated ∧
        ∃ first ≤ number, notice.eventNumber = some first := by
  have sorted := @numbers_sorted toUpperCase blocks
  rw [importBlocks_eq]
  rw [← numberedDrafts]
  generalize numberedDrafts toUpperCase blocks = drafts at *
  rw [← List.take_append_drop kMaxStoredAlarms drafts, List.map_append,
    List.pairwise_append] at sorted
  obtain ⟨-, dropped_sorted, split⟩ := sorted
  have listed : number ∈ (drafts.drop kMaxStoredAlarms).map Prod.fst :=
    List.mem_map.mpr ⟨_, mem, rfl⟩
  refine ⟨?_, fun earlier taken => split earlier taken number listed, ?_⟩
  · have nonempty := List.length_pos_of_mem mem
    rw [List.length_drop] at nonempty
    rw [List.length_map, List.length_take]
    omega
  · cases dropped : (drafts.drop kMaxStoredAlarms).map Prod.fst with
    | nil =>
        rw [dropped] at listed
        cases listed
    | cons first later =>
        refine ⟨_, List.mem_append_right _ List.mem_cons_self, rfl, first, ?_, rfl⟩
        rw [dropped] at listed dropped_sorted
        rcases List.mem_cons.mp listed with rfl | behind
        · exact Nat.le_refl _
        · exact Nat.le_of_lt (List.rel_of_pairwise_cons dropped_sorted behind)

theorem importBlocks_accounts (lines : List DartString) :
    Accounts (sections toUpperCase lines)
      (importBlocks toUpperCase (splitVEvents toUpperCase lines)) := by
  have suggestions : (importBlocks toUpperCase (splitVEvents toUpperCase lines)).suggestions =
      ((numberedDrafts toUpperCase (splitVEvents toUpperCase lines)).take kMaxStoredAlarms).map
        Prod.snd := by
    rw [importBlocks_eq]
    rfl
  have taken {numbered : Nat × AlarmDraft}
      (mem : numbered ∈ (numberedDrafts toUpperCase (splitVEvents toUpperCase lines)).take
        kMaxStoredAlarms) := suggested_of_numbered (List.mem_of_mem_take mem)
  have checks : ProposalChecks
      (importBlocks toUpperCase (splitVEvents toUpperCase lines)).suggestions := by
    rw [suggestions]
    constructor
    · rw [List.length_map]
      exact List.length_take_le _ _
    · rw [List.map_map]
      exact ids_distinct _ |>.sublist ((List.take_sublist _ _).map _)
  constructor
  case fits => exact checks.fits
  case ids => exact checks.ids
  case sendable =>
    intro δ
    rw [validateScheduleBody_wire checks, suggestions]
    intro draft mem
    obtain ⟨numbered, listed, rfl⟩ := List.mem_map.mp mem
    exact (taken listed).2
  case account =>
    refine ⟨((numberedDrafts toUpperCase (splitVEvents toUpperCase lines)).take
      kMaxStoredAlarms).map Prod.fst, ?_, ?_, ?_⟩
    · exact (numbers_sorted _).sublist ((List.take_sublist _ _).map _)
    · rw [suggestions, List.forall₂_map_left_iff, List.forall₂_map_right_iff, List.forall₂_same]
      exact fun numbered mem => (taken mem).1
    · intro number positive inside
      rw [← (splitVEvents_summarises lines).length_eq] at inside
      rcases turn_of_number positive inside with ⟨draft, mem⟩ | noted
      · rw [← List.take_append_drop kMaxStoredAlarms (numberedDrafts _ _)] at mem
        rcases List.mem_append.mp mem with kept | dropped
        · exact .inl (List.mem_map.mpr ⟨_, kept, rfl⟩)
        · exact .inr (.inr (announced_of_dropped dropped))
      · exact .inr (.inl noted)

/-- The import of any text throws one of its three exceptions or gives an account of every
event of the file; what a draft's constructor throws, the import catches. -/
theorem import_accounts (toUpperCase : DartString → DartString) (text : DartString) :
    ((∃ exception, importIcsSuggestions toUpperCase text = .error exception) ∨
      ∃ result, importIcsSuggestions toUpperCase text = .ok result ∧
        Accounts (sections toUpperCase (unfold text)) result ∧
        (sections toUpperCase (unfold text)).length =
          eventsOpened toUpperCase false (unfold text)) ∧
      ∀ (fields : AlarmFields) (error : DartError), fields.validate = .error error →
        error.IsArgumentError := by
  refine ⟨?_, fun fields error => AlarmFields.validate_throws⟩
  cases run : importIcsSuggestions toUpperCase text with
  | error exception => exact .inl ⟨exception, rfl⟩
  | ok result =>
      refine .inr ⟨result, rfl, ?_, length_sections _⟩
      rw [blocks_of_import run]
      exact importBlocks_accounts _

end Ics

end DawnDock.App
