import DawnDock.Recurrence.Zone
import DawnDock.TzifRules.Tables
import Mathlib.Data.List.Forall2

/-!
The rules the adapter emits give the offsets of the record.

A record's tables, the parsed chain and the emitted rules are one step function seen
through three operations of the adapter: the parser cuts the tables at the tail cutoff
and coalesces them (`emitTransitions_step`), the builder folds what lies before the
window into the initial offset and cuts what lies behind it (`emitWindow_eq`). Inside
the window none of them changes the value (`offsetAtUtc_windowRules`).
-/

namespace DawnDock

open ByteCodec StepFunction

/-! ### The chain as a step function -/

def UtcOffsetTransition.step (transition : UtcOffsetTransition) : Int × Int32 :=
  (transition.atUtcSeconds.toInt, transition.offsetAfterSeconds)

theorem offsetAtUtcLoop_valueAt (utcSeconds : Int64) (offset : Int32)
    (transitions : List UtcOffsetTransition) :
    offsetAtUtcLoop utcSeconds offset transitions =
      valueAt offset (transitions.map UtcOffsetTransition.step) utcSeconds.toInt := by
  induction transitions generalizing offset with
  | nil => rfl
  | cons transition rest ih =>
      rw [offsetAtUtcLoop, List.map_cons, valueAt, ih]
      exact if_congr Int64.lt_iff_toInt_lt rfl rfl

theorem foldBefore_valueAt (config : TzifAdapterConfig) (running : Int32)
    (transitions : List UtcOffsetTransition) :
    foldBefore config running transitions =
      valueAt running (transitions.map UtcOffsetTransition.step)
        config.fromUtcSeconds.toInt := by
  induction transitions generalizing running with
  | nil => rfl
  | cons transition rest ih =>
      rw [foldBefore, List.map_cons, valueAt, ih]
      exact if_congr Int64.lt_iff_toInt_lt rfl rfl

theorem emitTransitions_step (running : Int32) (steps : List (Int64 × Int32)) :
    (emitTransitions running steps).1.map UtcOffsetTransition.step =
      coalesce running ((steps.map fun step => (step.1.toInt, step.2)).takeWhile
        fun step => step.1 < kTzifTailCutoffUtcSeconds.toInt) := by
  induction steps generalizing running with
  | nil => rfl
  | cons step rest ih =>
      obtain ⟨time, afterOffset⟩ := step
      unfold emitTransitions
      by_cases cut : time ≥ kTzifTailCutoffUtcSeconds
      · rw [if_pos cut, List.map_cons, List.takeWhile_cons_of_neg]
        · rfl
        · simpa using Int64.le_iff_toInt_le.mp cut
      · rw [if_neg cut, List.map_cons, List.takeWhile_cons_of_pos, coalesce]
        · by_cases kept : afterOffset = running
          · rw [if_pos (by simpa using kept), if_pos kept, ih]
          · rw [if_neg (by simpa using kept), if_neg kept, ← ih]
            rfl
        · simpa using Int64.lt_iff_toInt_lt.mp (Int64.not_le.mp cut)

/-! ### The window -/

/-- The transitions the second loop lets through. -/
def inWindow (config : TzifAdapterConfig) (transitions : List UtcOffsetTransition) :
    List UtcOffsetTransition :=
  (transitions.filter fun transition => config.fromUtcSeconds < transition.atUtcSeconds).takeWhile
    fun transition => transition.atUtcSeconds ≤ config.untilUtcSeconds

/-- The second loop emits the transitions of the window, if the budget has room for them. -/
theorem emitWindow_eq {config : TzifAdapterConfig} {transitions : List UtcOffsetTransition}
    {total : Nat} (within : total ≤ config.maximumTotalTransitions)
    (emitted : List UtcOffsetTransition) :
    emitWindow config emitted total transitions =
      if total + (inWindow config transitions).length ≤ config.maximumTotalTransitions then
        .ok (emitted ++ inWindow config transitions,
          total + (inWindow config transitions).length)
      else .error (config.maximumTotalTransitions + 1) := by
  induction transitions generalizing total emitted with
  | nil => simp [emitWindow, inWindow, within]
  | cons transition rest ih =>
      rw [emitWindow]
      by_cases early : transition.atUtcSeconds ≤ config.fromUtcSeconds
      · have skipped : inWindow config (transition :: rest) = inWindow config rest := by
          rw [inWindow, List.filter_cons_of_neg (by simpa using early)]
          rfl
        rw [if_pos early, ih within, skipped]
      · have kept : (transition :: rest).filter (fun t => config.fromUtcSeconds < t.atUtcSeconds) =
            transition :: rest.filter fun t => config.fromUtcSeconds < t.atUtcSeconds :=
          List.filter_cons_of_pos (by simpa using early)
        rw [if_neg early]
        by_cases late : transition.atUtcSeconds > config.untilUtcSeconds
        · have stopped : inWindow config (transition :: rest) = [] := by
            rw [inWindow, kept, List.takeWhile_cons_of_neg (by simpa using late)]
          rw [if_pos late, stopped, if_pos (by simpa using within)]
          simp
        · have taken : inWindow config (transition :: rest) =
              transition :: inWindow config rest := by
            rw [inWindow, kept, List.takeWhile_cons_of_pos (by simpa using late)]
            rfl
          rw [if_neg late, taken, List.length_cons]
          by_cases full : total + 1 > config.maximumTotalTransitions
          · rw [if_pos full, if_neg (by omega)]
            congr 1
            omega
          · rw [if_neg full, ih (by omega), List.append_assoc, List.singleton_append]
            have same : total + 1 + (inWindow config rest).length =
                total + ((inWindow config rest).length + 1) := by omega
            rw [same]

theorem takeWhile_eq_filter {α : Type} {p : α → Bool} {values : List α}
    (closed : values.Pairwise fun earlier later => p later = true → p earlier = true) :
    values.takeWhile p = values.filter p := by
  induction values with
  | nil => rfl
  | cons value rest ih =>
      obtain ⟨head, closed⟩ := List.pairwise_cons.mp closed
      by_cases kept : p value = true
      · rw [List.takeWhile_cons_of_pos kept, List.filter_cons_of_pos kept, ih closed]
      · rw [List.takeWhile_cons_of_neg kept, List.filter_cons_of_neg kept, eq_comm,
          List.filter_eq_nil_iff]
        exact fun later mem reached => kept (head later mem reached)

/-- In a chain in order, the loop lets through exactly what lies in the window. -/
theorem inWindow_eq_filter {config : TzifAdapterConfig} {transitions : List UtcOffsetTransition}
    (ordered : Ordered (transitions.map UtcOffsetTransition.step)) :
    inWindow config transitions = transitions.filter fun transition =>
      config.fromUtcSeconds < transition.atUtcSeconds &&
        transition.atUtcSeconds ≤ config.untilUtcSeconds := by
  rw [inWindow, takeWhile_eq_filter, List.filter_filter]
  · simp only [Bool.and_comm]
  · refine List.Pairwise.sublist List.filter_sublist
      ((List.pairwise_map.mp ordered).imp fun {earlier later} lt reached => ?_)
    have lt : earlier.atUtcSeconds.toInt < later.atUtcSeconds.toInt := lt
    simp only [decide_eq_true_eq, Int64.le_iff_toInt_le] at reached ⊢
    omega

/-! ### One accepted record -/

/-- `parse_tzif_zone` accepts the record. -/
def accepted (zone : Text × Bytes) : Bool := (parseTzifZone zone.1 zone.2).1.status == .ok

/-- The rules of one accepted record. -/
def windowRules (config : TzifAdapterConfig) (zone : Text × Bytes) : TimezoneRules :=
  let parsed := (parseTzifZone zone.1 zone.2).2
  { name := parsed.zoneName, version := config.version
    initialUtcOffsetSeconds :=
      foldBefore config parsed.initialUtcOffsetSeconds parsed.transitions
    transitions := inWindow config parsed.transitions }

theorem secondBlock_error {zoneName : Text} {data : Bytes} {issue : TzifParseIssue}
    (h : secondBlock zoneName data = .error issue) : issue.status ≠ .ok := by
  unfold secondBlock at h
  repeat' split at h
  all_goals cases h
  all_goals simp [issueFor]

theorem of_bind_eq_error {ε α β : Type} {first : Except ε α} {next : α → Except ε β} {issue : ε}
    (h : first >>= next = .error issue) :
    first = .error issue ∨ ∃ value, first = .ok value ∧ next value = .error issue := by
  cases first with
  | error _ =>
      cases h
      exact .inl rfl
  | ok value => exact .inr ⟨value, rfl, h⟩

theorem readTable_error {α : Type}
    {entry : Nat → List α → BigEndianReader → Except TzifParseIssue (α × BigEndianReader)}
    (reports : ∀ i entries reader issue, entry i entries reader = .error issue →
      issue.status ≠ .ok)
    {remaining : Nat} {entries : List α} {reader : BigEndianReader} {issue : TzifParseIssue}
    (h : readTable entry remaining entries reader = .error issue) : issue.status ≠ .ok := by
  induction remaining generalizing entries reader with
  | zero => cases h
  | succ remaining ih =>
      obtain failed | ⟨_, _, rest⟩ := of_bind_eq_error h
      · exact reports _ _ _ _ failed
      · exact ih rest

/-- Every failure carries a status of its own. -/
theorem parseRecord_error {zoneName : Text} {data : Bytes} {issue : TzifParseIssue}
    (h : parseRecord zoneName data = .error issue) : issue.status ≠ .ok := by
  obtain failed | ⟨⟨counts, reader⟩, _, h⟩ := of_bind_eq_error h
  · exact secondBlock_error failed
  obtain failed | ⟨_, _, last⟩ := of_bind_eq_error h
  · obtain failed | ⟨_, _, h⟩ := of_bind_eq_error failed
    · refine readTable_error (fun _ _ _ _ entry => ?_) failed
      unfold transitionTime at entry
      repeat' split at entry
      all_goals cases entry
      all_goals simp [issueFor]
    obtain failed | ⟨_, _, h⟩ := of_bind_eq_error h
    · refine readTable_error (fun _ _ _ _ entry => ?_) failed
      unfold typeIndex at entry
      repeat' split at entry
      all_goals cases entry
      all_goals simp [issueFor]
    obtain failed | ⟨_, _, last⟩ := of_bind_eq_error h
    · refine readTable_error (fun _ _ _ _ entry => ?_) failed
      unfold localTimeType at entry
      repeat' split at entry
      all_goals cases entry
      all_goals simp [issueFor]
    cases last
  · cases last

/-- A record that is not accepted leaves the output empty. -/
theorem parseTzifZone_rejected {zone : Text × Bytes} (rejected : accepted zone = false) :
    (parseTzifZone zone.1 zone.2).2 = {} := by
  unfold accepted parseTzifZone at *
  split
  · rfl
  · rename_i parsed
    rw [parsed] at rejected
    simp [issueFor] at rejected

/-- An accepted record is parsed from its own tables. -/
theorem parseTzifZone_accepted {zone : Text × Bytes} (ok : accepted zone = true) :
    ∃ tables : ZoneTables, (parseTzifZone zone.1 zone.2).2 = parsedZone zone.1 tables ∧
      tables.Describes zone.2 ∧ ∀ offset ∈ tables.types, validOffset offset = true := by
  unfold accepted parseTzifZone at *
  split at ok
  · rename_i issue failed
    exact absurd (by simpa using ok) (parseRecord_error failed)
  · rename_i parsed read
    exact parseRecord_reads read

section Tables

variable {tables : ZoneTables} {data : Bytes}

theorem ZoneTables.Describes.offset (describes : tables.Describes data) {index : Nat}
    (known : index < (Tzif.version2Counts data).type) :
    (tables.types.getD index 0).toInt = Tzif.utoff data index := by
  have entry := congrArg (·[index]?) describes.types
  simp only [List.getElem?_map, List.getElem?_range known, Option.map_some] at entry
  obtain ⟨type, found, same⟩ := Option.map_eq_some_iff.mp entry
  rw [List.getD_eq_getElem?_getD, found, Option.getD_some, same]

theorem ZoneTables.Describes.initialOffset (describes : tables.Describes data) :
    tables.initialOffset.toInt = Tzif.utoff data 0 := by
  rw [← describes.offset (Nat.pos_of_ne_zero describes.someType), ZoneTables.initialOffset]
  cases tables.types <;> rfl

theorem ZoneTables.Describes.steps (describes : tables.Describes data) :
    tables.steps.map (fun step => (step.1.toInt, step.2.toInt)) = Tzif.steps data := by
  have offsets : (tables.typeIndices.map fun index => tables.types.getD index.toNat 0).map
      Int32.toInt = (tables.typeIndices.map UInt8.toNat).map (Tzif.utoff data) := by
    rw [List.map_map, List.map_map]
    refine List.map_congr_left fun index mem => ?_
    rw [Function.comp_apply, Function.comp_apply, describes.offset (describes.known index mem)]
  have split_step : (fun step : Int64 × Int32 => (step.1.toInt, step.2.toInt)) =
      Prod.map Int64.toInt Int32.toInt := rfl
  rw [ZoneTables.steps, split_step, ← List.zip_map, offsets, describes.times,
    describes.typeIndices, List.map_map, List.zip_map', Tzif.steps]
  -- by `rw`: unfolding the composition by reduction would unfold the fields as well
  exact List.map_congr_left fun i _ => by rw [Function.comp_apply]

theorem ZoneTables.Describes.steps_ordered (describes : tables.Describes data) :
    Ordered (Tzif.steps data) := by
  rw [Ordered, Tzif.steps, List.pairwise_map, ← List.pairwise_map (f := Tzif.transitionTime data)
    (R := fun earlier later => earlier < later), ← describes.times, List.pairwise_map]
  exact describes.ordered.imp Int64.lt_iff_toInt_lt.mp

end Tables

section Accepted

variable {zone : Text × Bytes} {config : TzifAdapterConfig}

/-- The parsed chain has the record's offset at every instant before the tail cutoff. -/
theorem parsed_offset (ok : accepted zone = true) :
    let parsed := (parseTzifZone zone.1 zone.2).2
    Ordered (parsed.transitions.map UtcOffsetTransition.step) ∧
      ∀ instant < kTzifTailCutoffUtcSeconds.toInt,
        (valueAt parsed.initialUtcOffsetSeconds
          (parsed.transitions.map UtcOffsetTransition.step) instant).toInt =
        Tzif.offsetAt zone.2 instant := by
  obtain ⟨tables, parsed, describes, -⟩ := parseTzifZone_accepted ok
  have chain : (parseTzifZone zone.1 zone.2).2.transitions.map UtcOffsetTransition.step = _ :=
    (congrArg (fun parsed => parsed.transitions.map UtcOffsetTransition.step) parsed).trans
      (emitTransitions_step tables.initialOffset tables.steps)
  have initial : (parseTzifZone zone.1 zone.2).2.initialUtcOffsetSeconds = tables.initialOffset :=
    congrArg ParsedTzifZone.initialUtcOffsetSeconds parsed
  have steps : (tables.steps.map fun step => (step.1.toInt, step.2)).map
      (fun step => (step.1, step.2.toInt)) = Tzif.steps zone.2 := by
    rw [← describes.steps, List.map_map]
    rfl
  have ordered : Ordered (tables.steps.map fun step => (step.1.toInt, step.2)) := by
    have ordered := describes.steps_ordered
    rwa [← steps, Ordered, List.pairwise_map] at ordered
  intro _
  rw [chain, initial]
  refine ⟨(ordered.sublist (List.takeWhile_sublist _)).sublist coalesce_sublist,
    fun instant before_cutoff => ?_⟩
  rw [valueAt_coalesce (ordered.sublist (List.takeWhile_sublist _)),
    valueAt_takeWhile (· < kTzifTailCutoffUtcSeconds.toInt)
      (fun _ _ => lt_of_le_of_lt) before_cutoff,
    ← valueAt_map Int32.toInt, steps, describes.initialOffset,
    Tzif.valueAt_steps zone.2 describes.steps_ordered]

/-- The emitted rules have the record's offset at every instant of the window before the
tail cutoff. -/
theorem windowRules_valueAt (ok : accepted zone = true) {instant : Int}
    (from_le : config.fromUtcSeconds.toInt ≤ instant)
    (le_until : instant ≤ config.untilUtcSeconds.toInt)
    (before_cutoff : instant < kTzifTailCutoffUtcSeconds.toInt) :
    (valueAt (windowRules config zone).initialUtcOffsetSeconds
        ((windowRules config zone).transitions.map UtcOffsetTransition.step) instant).toInt =
      Tzif.offsetAt zone.2 instant := by
  obtain ⟨ordered, offset⟩ := parsed_offset ok
  rw [← offset _ before_cutoff]
  congr 1
  have window : (windowRules config zone).transitions.map UtcOffsetTransition.step =
      (((parseTzifZone zone.1 zone.2).2.transitions.map UtcOffsetTransition.step).filter
        fun step => config.fromUtcSeconds.toInt < step.1).takeWhile
          fun step => step.1 ≤ config.untilUtcSeconds.toInt := by
    rw [List.filter_map, List.takeWhile_map]
    simp only [windowRules, inWindow, Int64.lt_iff_toInt_lt, Int64.le_iff_toInt_le]
    rfl
  rw [window, valueAt_takeWhile (· ≤ config.untilUtcSeconds.toInt) (fun _ _ => le_trans) le_until]
  show valueAt (foldBefore config _ _) _ _ = _
  rw [foldBefore_valueAt, valueAt_after ordered from_le]

theorem offsetAtUtc_windowRules (ok : accepted zone = true) {utcSeconds : Int64}
    (from_le : config.fromUtcSeconds ≤ utcSeconds) (le_until : utcSeconds ≤ config.untilUtcSeconds)
    (before_cutoff : utcSeconds < kTzifTailCutoffUtcSeconds) :
    (offsetAtUtc (windowRules config zone) utcSeconds).toInt =
      Tzif.offsetAt zone.2 utcSeconds.toInt := by
  rw [offsetAtUtc, offsetAtUtcLoop_valueAt]
  exact windowRules_valueAt ok (Int64.le_iff_toInt_le.mp from_le)
    (Int64.le_iff_toInt_le.mp le_until) (Int64.lt_iff_toInt_lt.mp before_cutoff)

/-- The transitions of a record that fall in the window; none when it is not accepted. -/
def windowCount (config : TzifAdapterConfig) (zone : Text × Bytes) : Nat :=
  ((parseTzifZone zone.1 zone.2).2.transitions.filter fun transition =>
    config.fromUtcSeconds < transition.atUtcSeconds &&
      transition.atUtcSeconds ≤ config.untilUtcSeconds).length

theorem windowCount_rejected (rejected : accepted zone = false) : windowCount config zone = 0 := by
  rw [windowCount, parseTzifZone_rejected rejected]
  rfl

theorem windowCount_accepted (ok : accepted zone = true) :
    (inWindow config (parseTzifZone zone.1 zone.2).2.transitions).length =
      windowCount config zone := by
  rw [inWindow_eq_filter (parsed_offset ok).1]
  rfl

end Accepted

/-! ### The loop over the zones -/

section Adapter

variable {config : TzifAdapterConfig} {state : AdapterState} {zone : Text × Bytes}
  {zones : List (Text × Bytes)}

theorem adaptZone_rejected (rejected : accepted zone = false) :
    adaptZone config state zone =
      .ok { state with issues := state.issues ++ [(parseTzifZone zone.1 zone.2).1] } := by
  have failed : ((parseTzifZone zone.1 zone.2).1.status != .ok) = true := by
    simpa [accepted, bne] using rejected
  rw [adaptZone, if_pos failed]

theorem adaptZone_accepted (ok : accepted zone = true)
    (within : state.total ≤ config.maximumTotalTransitions) :
    adaptZone config state zone =
      if state.total + windowCount config zone ≤ config.maximumTotalTransitions then
        .ok { state with
              prepared := state.prepared ++ [windowRules config zone]
              total := state.total + windowCount config zone }
      else
        .error (state.issues ++ [issueFor (parseTzifZone zone.1 zone.2).2.zoneName
          .excessiveCounts (config.maximumTotalTransitions + 1)]) := by
  have parsed_ok : ¬ ((parseTzifZone zone.1 zone.2).1.status != .ok) = true := by
    simpa [accepted, bne] using ok
  rw [adaptZone, if_neg parsed_ok, emitWindow_eq within, windowCount_accepted ok]
  by_cases room : state.total + windowCount config zone ≤ config.maximumTotalTransitions
  · simp only [if_pos room]
    rfl
  · simp only [if_neg room]

def windowTotal (config : TzifAdapterConfig) (zones : List (Text × Bytes)) : Nat :=
  (zones.map (windowCount config)).sum

/-- The loop prepares the rules of every accepted record, or breaks the budget. -/
theorem foldlM_adaptZone (within : state.total ≤ config.maximumTotalTransitions) :
    (state.total + windowTotal config zones ≤ config.maximumTotalTransitions ∧
      ∃ issues, zones.foldlM (adaptZone config) state =
        .ok { prepared := state.prepared ++ (zones.filter accepted).map (windowRules config)
              issues, total := state.total + windowTotal config zones }) ∨
    (config.maximumTotalTransitions < state.total + windowTotal config zones ∧
      ∃ issues, zones.foldlM (adaptZone config) state = .error issues) := by
  induction zones generalizing state with
  | nil =>
      refine .inl ⟨within, state.issues, ?_⟩
      simp [windowTotal, pure, Except.pure]
  | cons zone rest ih =>
      have total : windowTotal config (zone :: rest) =
          windowCount config zone + windowTotal config rest := by
        rw [windowTotal, List.map_cons, List.sum_cons]
        rfl
      rw [List.foldlM_cons, total]
      cases ok : accepted zone with
      | false =>
          rw [adaptZone_rejected ok, windowCount_rejected ok, Nat.zero_add,
            List.filter_cons_of_neg (by simp [ok])]
          exact @ih { state with issues := state.issues ++ [(parseTzifZone zone.1 zone.2).1] } within
      | true =>
          rw [adaptZone_accepted ok within, List.filter_cons_of_pos ok, ← Nat.add_assoc]
          by_cases room : state.total + windowCount config zone ≤ config.maximumTotalTransitions
          · rw [if_pos room]
            obtain ⟨le, issues, run⟩ | broken := @ih { state with
                prepared := state.prepared ++ [windowRules config zone]
                total := state.total + windowCount config zone } room
            · refine .inl ⟨le, issues, run.trans ?_⟩
              rw [List.append_assoc]
              rfl
            · exact .inr broken
          · rw [if_neg room]
            exact .inr ⟨by omega, _, rfl⟩

end Adapter

section Built

variable (zones : List (Text × Bytes)) (config : TzifAdapterConfig)

theorem buildPinnedTimezoneRules_cases :
    let result := buildPinnedTimezoneRules zones config
    (windowTotal config zones ≤ config.maximumTotalTransitions ∧
        result.budgetExceeded = false ∧
        result.zones = sortByName ((zones.filter accepted).map (windowRules config))) ∨
      (config.maximumTotalTransitions < windowTotal config zones ∧
        result.budgetExceeded = true ∧ result.zones = []) := by
  intro result
  have loop := @foldlM_adaptZone config {} zones (Nat.zero_le _)
  simp only [List.nil_append, Nat.zero_add] at loop
  obtain ⟨le, issues, run⟩ | ⟨lt, issues, run⟩ := loop
  · refine .inl ⟨le, ?_⟩
    simp only [result, buildPinnedTimezoneRules, run, and_self]
  · refine .inr ⟨lt, ?_⟩
    simp only [result, buildPinnedTimezoneRules, run, and_self]

end Built

/-- The rules built for a window keep the offset function of every accepted record. A
record that is not accepted leaves the parse output empty and the other zones as they
are without it; a total beyond the budget yields no zone. -/
theorem tzif_import_preserves_offset :
    (∀ name data, (parseTzifZone name data).1.status ≠ .ok → (parseTzifZone name data).2 = {}) ∧
    ∀ zones config,
      let result := buildPinnedTimezoneRules zones config
      (result.budgetExceeded = true ↔
        config.maximumTotalTransitions < (zones.map (windowCount config)).sum) ∧
      (result.budgetExceeded = true → result.zones = []) ∧
      (result.budgetExceeded = false →
        ∃ emitted, result.zones.Perm emitted ∧
          List.Forall₂ (fun zone rules => rules.name = zone.1 ∧ rules.version = config.version ∧
            ∀ utcSeconds : Int64, config.fromUtcSeconds ≤ utcSeconds →
              utcSeconds ≤ config.untilUtcSeconds → utcSeconds < kTzifTailCutoffUtcSeconds →
              (offsetAtUtc rules utcSeconds).toInt = Tzif.offsetAt zone.2 utcSeconds.toInt)
            (zones.filter fun zone => (parseTzifZone zone.1 zone.2).1.status == .ok) emitted) ∧
      ∀ before failing after, zones = before ++ failing :: after →
        (parseTzifZone failing.1 failing.2).1.status ≠ .ok →
        result.zones = (buildPinnedTimezoneRules (before ++ after) config).zones ∧
          result.budgetExceeded =
            (buildPinnedTimezoneRules (before ++ after) config).budgetExceeded := by
  refine ⟨fun name data failed => ?_, fun zones config => ?_⟩
  · exact @parseTzifZone_rejected (name, data) (by simpa [accepted] using failed)
  intro result
  have built := buildPinnedTimezoneRules_cases zones config
  refine ⟨?_, ?_, ?_, ?_⟩
  · obtain ⟨le, kept, -⟩ | ⟨lt, broken, -⟩ := built
    · exact ⟨fun exceeded => absurd (kept.symm.trans exceeded) (by decide),
        fun lt => absurd lt (Nat.not_lt.mpr le)⟩
    · exact ⟨fun _ => lt, fun _ => broken⟩
  · intro exceeded
    obtain ⟨_, kept, -⟩ | ⟨_, _, none⟩ := built
    · exact absurd (kept.symm.trans exceeded) (by decide)
    · exact none
  · intro within
    obtain ⟨_, _, zones_eq⟩ | ⟨_, broken, -⟩ := built
    · have sorted : result.zones.Perm ((zones.filter accepted).map (windowRules config)) := by
        rw [show result.zones = _ from zones_eq]
        exact List.mergeSort_perm _ _
      refine ⟨_, sorted, List.forall₂_map_right_iff.mpr ?_⟩
      refine List.forall₂_same.mpr fun zone mem => ?_
      have ok : accepted zone = true := (List.mem_filter.mp mem).2
      refine ⟨?_, rfl, fun utcSeconds from_le le_until before_cutoff =>
        offsetAtUtc_windowRules ok from_le le_until before_cutoff⟩
      obtain ⟨tables, parsed, -⟩ := parseTzifZone_accepted ok
      exact congrArg ParsedTzifZone.zoneName parsed
    · exact absurd (within.symm.trans broken) (by decide)
  · rintro before failing after rfl failed
    have rejected : accepted failing = false := by simpa [accepted] using failed
    have without := buildPinnedTimezoneRules_cases (before ++ after) config
    have total : windowTotal config (before ++ failing :: after) =
        windowTotal config (before ++ after) := by
      simp [windowTotal, windowCount_rejected rejected]
    have kept : (before ++ failing :: after).filter accepted = (before ++ after).filter accepted := by
      simp [rejected]
    rw [total, kept] at built
    obtain ⟨le, whole_ok, whole⟩ | ⟨lt, whole_broken, whole⟩ := built
    · obtain ⟨_, rest_ok, rest⟩ | ⟨lt, -⟩ := without
      · exact ⟨whole.trans rest.symm, whole_ok.trans rest_ok.symm⟩
      · exact absurd le (Nat.not_le.mpr lt)
    · obtain ⟨le, -⟩ | ⟨_, rest_broken, rest⟩ := without
      · exact absurd le (Nat.not_le.mpr lt)
      · exact ⟨whole.trans rest.symm, whole_broken.trans rest_broken.symm⟩

/-- A record with an empty version-1 block, the types EST and EDT, and one transition. -/
def oneTransitionRecord : Bytes :=
  [0x54, 0x5a, 0x69, 0x66] ++ List.replicate 40 0 ++ [0x54, 0x5a, 0x69, 0x66, 0x32] ++
    List.replicate 27 0 ++ [0, 0, 0, 1, 0, 0, 0, 2, 0, 0, 0, 8] ++ [0, 0, 0, 0, 0, 0, 0x03, 0xe8] ++ [1] ++
    [0xff, 0xff, 0xb9, 0xb0, 0, 0] ++ [0xff, 0xff, 0xc7, 0xc0, 1, 4] ++
    [0x45, 0x53, 0x54, 0, 0x45, 0x44, 0x54, 0]

example : (Tzif.offsetAt oneTransitionRecord 999, Tzif.offsetAt oneTransitionRecord 1000) =
    (-18000, -14400) := by decide +kernel

example : (parseTzifZone [0x4e] oneTransitionRecord).2.transitions =
    [{ atUtcSeconds := 1000, offsetBeforeSeconds := -18000, offsetAfterSeconds := -14400 }] := by
  decide +kernel

end DawnDock
