import DawnDock.Recurrence.Search
import DawnDock.TzifRules.Import
import Mathlib.Data.List.TakeWhile

/-!
Which emitted rule sets the resolver can use.

The adapter emits chains that are linked, in order and within a day of UTC
(`windowRules_chained`). What the resolver's check asks for beyond that is that wall times
next to a transition can be represented; `hasValidTransitionChain_windowRules` says what
this means for the record.
-/

namespace DawnDock

open StepFunction

/-! ### Chains -/

/-- Each transition takes over from the one before, and changes the offset. -/
def Chained (offset : Int32) : List UtcOffsetTransition → Prop
  | [] => True
  | transition :: rest =>
    transition.offsetBeforeSeconds = offset ∧
      transition.offsetAfterSeconds ≠ transition.offsetBeforeSeconds ∧
      Chained transition.offsetAfterSeconds rest

section Chains

variable {offset : Int32} {transitions : List UtcOffsetTransition} {config : TzifAdapterConfig}

theorem emitTransitions_chained (running : Int32) (steps : List (Int64 × Int32)) :
    Chained running (emitTransitions running steps).1 := by
  induction steps generalizing running with
  | nil => trivial
  | cons step rest ih =>
      obtain ⟨time, afterOffset⟩ := step
      unfold emitTransitions
      split
      · trivial
      split
      · exact ih running
      · rename_i differs
        exact ⟨rfl, fun same => differs (beq_iff_eq.mpr same), ih afterOffset⟩

theorem chained_takeWhile (chained : Chained offset transitions)
    (inside : UtcOffsetTransition → Bool) : Chained offset (transitions.takeWhile inside) := by
  induction transitions generalizing offset with
  | nil => trivial
  | cons transition rest ih =>
      rw [List.takeWhile_cons]
      split
      · exact ⟨chained.1, chained.2.1, ih chained.2.2⟩
      · trivial

/-- What is left behind the origin is linked to the offset that the rest folds into. -/
theorem chained_after (chained : Chained offset transitions)
    (ordered : Ordered (transitions.map UtcOffsetTransition.step)) :
    Chained (foldBefore config offset transitions) (transitions.filter fun transition =>
      config.fromUtcSeconds < transition.atUtcSeconds) := by
  induction transitions generalizing offset with
  | nil => trivial
  | cons transition rest ih =>
      obtain ⟨before, ordered⟩ := List.pairwise_cons.mp ordered
      rw [foldBefore]
      by_cases late : transition.atUtcSeconds > config.fromUtcSeconds
      · have all : (transition :: rest).filter (fun transition =>
            config.fromUtcSeconds < transition.atUtcSeconds) = transition :: rest := by
          rw [List.filter_eq_self, List.forall_mem_cons]
          refine ⟨decide_eq_true late, ?_⟩
          intro later mem
          apply decide_eq_true
          have lt := before _ (List.mem_map_of_mem mem)
          exact Int64.lt_trans late (Int64.lt_iff_toInt_lt.mpr lt)
        rw [if_pos late, all]
        exact chained
      · rw [if_neg late, List.filter_cons_of_neg (by simpa using late)]
        exact ih chained.2.2 ordered

theorem windowRules_chained {zone : Text × ByteCodec.Bytes} (ok : accepted zone = true) :
    Chained (windowRules config zone).initialUtcOffsetSeconds
      (windowRules config zone).transitions := by
  obtain ⟨tables, parsed, -⟩ := parseTzifZone_accepted ok
  have ordered := (parsed_offset ok).1
  rw [windowRules, inWindow]
  apply chained_takeWhile
  apply chained_after _ ordered
  rw [parsed]
  exact emitTransitions_chained tables.initialOffset tables.steps

/-- In a chain in order, a transition leads from the offset in force just before it. -/
theorem chained_before (chained : Chained offset transitions)
    (ordered : Ordered (transitions.map UtcOffsetTransition.step))
    {transition : UtcOffsetTransition} (mem : transition ∈ transitions) :
    valueAt offset (transitions.map UtcOffsetTransition.step)
        (transition.atUtcSeconds.toInt - 1) = transition.offsetBeforeSeconds := by
  induction transitions generalizing offset with
  | nil => cases mem
  | cons first rest ih =>
      obtain ⟨before, ordered⟩ := List.pairwise_cons.mp ordered
      rw [List.map_cons, valueAt]
      obtain rfl | mem := List.mem_cons.mp mem
      · have sooner : transition.atUtcSeconds.toInt - 1 < transition.step.1 := Int.sub_one_lt_of_le le_rfl
        rw [if_pos sooner]
        exact chained.1.symm
      · have later : first.step.1 ≤ transition.atUtcSeconds.toInt - 1 :=
          Int.le_sub_one_of_lt (before _ (List.mem_map_of_mem mem))
        rw [if_neg (Int.not_lt.mpr later)]
        exact ih chained.2.2 ordered mem

theorem chained_changes (chained : Chained offset transitions) :
    ∀ transition ∈ transitions,
      transition.offsetAfterSeconds ≠ transition.offsetBeforeSeconds := by
  induction transitions generalizing offset with
  | nil => exact List.forall_mem_nil _
  | cons first rest ih => exact List.forall_mem_cons.mpr ⟨chained.2.1, ih chained.2.2⟩

end Chains

/-! ### The resolver's check -/

section Check

variable {offset : Int32} {transitions : List UtcOffsetTransition}

/-- What the check asks for beyond a chain in order with valid offsets. -/
theorem validTransitions_iff {previous : Option Int64} (chained : Chained offset transitions)
    (ordered : Ordered (transitions.map UtcOffsetTransition.step))
    (valid : validUtcOffset offset = true)
    (valid_after : ∀ transition ∈ transitions,
      validUtcOffset transition.offsetAfterSeconds = true)
    (earlier : ∀ instant ∈ previous, ∀ transition ∈ transitions,
      instant < transition.atUtcSeconds) :
    validTransitions previous offset transitions = true ↔
      ∀ transition ∈ transitions,
        canAdd transition.atUtcSeconds transition.offsetBeforeSeconds = true ∧
          canAdd transition.atUtcSeconds transition.offsetAfterSeconds = true := by
  induction transitions generalizing offset previous with
  | nil => exact ⟨fun _ => List.forall_mem_nil _, fun _ => rfl⟩
  | cons first rest ih =>
      obtain ⟨before, ordered⟩ := List.pairwise_cons.mp ordered
      obtain ⟨rfl, changes, chained⟩ := chained
      rw [List.forall_mem_cons] at valid_after
      have later : previous.any (first.atUtcSeconds ≤ ·) = false := by
        cases previous with
        | none => rfl
        | some instant =>
            exact decide_eq_false (Int64.not_le.mpr (earlier instant rfl first List.mem_cons_self))
      have next := @ih _ (some first.atUtcSeconds) chained ordered valid_after.1
        valid_after.2 (by
          rintro _ ⟨⟩ transition mem
          exact Int64.lt_iff_toInt_lt.mpr (before _ (List.mem_map_of_mem mem)))
      have same : (first.offsetBeforeSeconds == first.offsetAfterSeconds) = false :=
        beq_false_of_ne (Ne.symm changes)
      rw [validTransitions, later, bne_self_eq_false, valid, valid_after.1, same,
        List.forall_mem_cons, ← next]
      cases canAdd first.atUtcSeconds first.offsetBeforeSeconds with
      | false => simp
      | true =>
          cases canAdd first.atUtcSeconds first.offsetAfterSeconds with
          | false => simp
          | true => simp

/-- What holds of the offsets of all steps holds of those emitted, and they lie before the
cutoff. -/
theorem of_mem_emitTransitions {P : Int32 → Prop} (running : Int32) {steps : List (Int64 × Int32)}
    (known : ∀ step ∈ steps, P step.2) :
    ∀ transition ∈ (emitTransitions running steps).1,
      P transition.offsetAfterSeconds ∧
        transition.atUtcSeconds < kTzifTailCutoffUtcSeconds := by
  induction steps generalizing running with
  | nil => exact List.forall_mem_nil _
  | cons step rest ih =>
      obtain ⟨time, afterOffset⟩ := step
      rw [List.forall_mem_cons] at known
      unfold emitTransitions
      split
      · exact List.forall_mem_nil _
      rename_i before
      split
      · exact ih running known.2
      · rw [List.forall_mem_cons]
        exact ⟨⟨known.1, Int64.not_le.mp before⟩, ih afterOffset known.2⟩

theorem of_foldBefore {P : Int32 → Prop} {config : TzifAdapterConfig} (start : P offset)
    (known : ∀ transition ∈ transitions, P transition.offsetAfterSeconds) :
    P (foldBefore config offset transitions) := by
  induction transitions generalizing offset with
  | nil => exact start
  | cons transition rest ih =>
      rw [List.forall_mem_cons] at known
      rw [foldBefore]
      split
      · exact start
      · exact ih known.1 known.2

theorem mem_of_mem_inWindow {config : TzifAdapterConfig} {transition : UtcOffsetTransition}
    (mem : transition ∈ inWindow config transitions) :
    transition ∈ transitions ∧ config.fromUtcSeconds < transition.atUtcSeconds ∧
      transition.atUtcSeconds ≤ config.untilUtcSeconds := by
  have until_le := List.mem_takeWhile_imp mem
  have filtered := List.mem_filter.mp ((List.takeWhile_sublist _).subset mem)
  exact ⟨filtered.1, of_decide_eq_true filtered.2, of_decide_eq_true until_le⟩

variable {zone : Text × ByteCodec.Bytes} {config : TzifAdapterConfig}

theorem validUtcOffset_windowRules (ok : accepted zone = true) :
    validUtcOffset (windowRules config zone).initialUtcOffsetSeconds = true ∧
      ∀ transition ∈ (windowRules config zone).transitions,
        validUtcOffset transition.offsetAfterSeconds = true ∧
          transition.atUtcSeconds < kTzifTailCutoffUtcSeconds := by
  obtain ⟨tables, parsed, describes, valid⟩ := parseTzifZone_accepted ok
  have known (index : Nat) : validUtcOffset (tables.types.getD index 0) = true := by
    rw [List.getD_eq_getElem?_getD]
    cases found : tables.types[index]? with
    | none => rfl
    | some offset => exact valid offset (List.mem_of_getElem? found)
  have start : validUtcOffset tables.initialOffset = true := by
    have first := known 0
    rwa [List.getD_eq_getElem?_getD, ← List.head?_eq_getElem?, ← List.headD_eq_head?_getD] at first
  have steps : ∀ step ∈ tables.steps, validUtcOffset step.2 = true := by
    intro step mem
    obtain ⟨index, -, same⟩ := List.mem_map.mp (List.of_mem_zip mem).2
    rw [← same]
    exact known index.toNat
  have emitted := of_mem_emitTransitions (P := (validUtcOffset · = true)) tables.initialOffset
    steps
  constructor
  · rw [windowRules, parsed]
    exact of_foldBefore (P := (validUtcOffset · = true)) start
      fun transition mem => (emitted transition mem).1
  · intro transition mem
    rw [windowRules, parsed] at mem
    exact emitted transition (mem_of_mem_inWindow mem).1

theorem ordered_windowRules (ok : accepted zone = true) :
    Ordered ((windowRules config zone).transitions.map UtcOffsetTransition.step) := by
  have ordered := (parsed_offset ok).1
  apply ordered.sublist
  apply List.Sublist.map
  exact (List.takeWhile_sublist _).trans List.filter_sublist

end Check

/-! ### Changes of the offset -/

/-- The instants of the window, before the tail cutoff, at which the record's offset changes. -/
def changesIn (config : TzifAdapterConfig) (record : Tzif.Record) : List Int :=
  ((List.range (Tzif.version2Counts record).time).map (Tzif.transitionTime record)).filter
    fun instant => config.fromUtcSeconds.toInt < instant ∧
      instant ≤ config.untilUtcSeconds.toInt ∧ instant < kTzifTailCutoffUtcSeconds.toInt ∧
      Tzif.offsetAt record (instant - 1) ≠ Tzif.offsetAt record instant

/-- The wall times before and after each change in the window fit in 64 bits. -/
def WallTimesFit (config : TzifAdapterConfig) (record : Tzif.Record) : Prop :=
  ∀ instant ∈ changesIn config record, -2 ^ 63 ≤ instant + Tzif.offsetAt record (instant - 1) ∧
    -2 ^ 63 ≤ instant + Tzif.offsetAt record instant

section Window

variable {zone : Text × ByteCodec.Bytes} {config : TzifAdapterConfig}

/-- An emitted transition leads from the record's offset just before it to that at it. -/
theorem windowRules_change (ok : accepted zone = true) {transition : UtcOffsetTransition}
    (mem : transition ∈ (windowRules config zone).transitions) :
    transition.offsetBeforeSeconds.toInt =
        Tzif.offsetAt zone.2 (transition.atUtcSeconds.toInt - 1) ∧
      transition.offsetAfterSeconds.toInt =
        Tzif.offsetAt zone.2 transition.atUtcSeconds.toInt := by
  have ordered := @ordered_windowRules zone config ok
  have cutoff := Int64.lt_iff_toInt_lt.mp ((@validUtcOffset_windowRules zone config ok).2 _ mem).2
  obtain ⟨-, later, within⟩ := mem_of_mem_inWindow mem
  rw [Int64.lt_iff_toInt_lt] at later
  rw [Int64.le_iff_toInt_le] at within
  constructor
  · rw [← @windowRules_valueAt zone config ok _ (by omega) (by omega) (by omega),
      chained_before (windowRules_chained ok) ordered mem]
  · rw [← @windowRules_valueAt zone config ok _ (by omega) within cutoff]
    have same : valueAt (windowRules config zone).initialUtcOffsetSeconds _ _ = _ :=
      valueAt_of_mem ordered (List.mem_map_of_mem mem)
    exact congrArg Int32.toInt same.symm

/-- The transitions that are emitted are the changes of the record's offset in the window. -/
theorem mem_changesIn (ok : accepted zone = true) (instant : Int) :
    instant ∈ changesIn config zone.2 ↔
      ∃ transition ∈ (windowRules config zone).transitions,
        transition.atUtcSeconds.toInt = instant := by
  have ordered := @ordered_windowRules zone config ok
  rw [changesIn, List.mem_filter, decide_eq_true_iff]
  constructor
  · rintro ⟨-, later, within, cutoff, changes⟩
    rw [← @windowRules_valueAt zone config ok _ (by omega) (by omega) (by omega),
      ← @windowRules_valueAt zone config ok _ (by omega) within cutoff] at changes
    obtain ⟨step, mem, same⟩ := exists_of_change fun equal => changes (congrArg Int32.toInt equal)
    obtain ⟨transition, listed, rfl⟩ := List.mem_map.mp mem
    exact ⟨transition, listed, same⟩
  · rintro ⟨transition, mem, rfl⟩
    obtain ⟨tables, -, describes, -⟩ := parseTzifZone_accepted ok
    have cutoff := Int64.lt_iff_toInt_lt.mp
      ((@validUtcOffset_windowRules zone config ok).2 _ mem).2
    obtain ⟨-, later, within⟩ := mem_of_mem_inWindow mem
    obtain ⟨before, after⟩ := windowRules_change ok mem
    have changes : Tzif.offsetAt zone.2 (transition.atUtcSeconds.toInt - 1) ≠
        Tzif.offsetAt zone.2 transition.atUtcSeconds.toInt := by
      rw [← before, ← after]
      intro same
      exact chained_changes (windowRules_chained ok) transition mem (Int32.toInt_inj.mp same.symm)
    refine ⟨?_, Int64.lt_iff_toInt_lt.mp later, Int64.le_iff_toInt_le.mp within, cutoff, changes⟩
    rw [← Tzif.valueAt_steps zone.2 describes.steps_ordered,
      ← Tzif.valueAt_steps zone.2 describes.steps_ordered] at changes
    obtain ⟨step, mem, same⟩ := exists_of_change changes
    obtain ⟨i, i_mem, rfl⟩ := List.mem_map.mp mem
    exact List.mem_map.mpr ⟨i, i_mem, same⟩

theorem hasValidTransitionChain_windowRules (ok : accepted zone = true) :
    hasValidTransitionChain (windowRules config zone) = true ↔ WallTimesFit config zone.2 := by
  have valid := @validUtcOffset_windowRules zone config ok
  rw [hasValidTransitionChain_iff, and_iff_right valid.1,
    validTransitions_iff (windowRules_chained ok) (ordered_windowRules ok) valid.1
      (fun transition mem => (valid.2 transition mem).1) (by rintro _ ⟨⟩)]
  have fits {transition : UtcOffsetTransition}
      (mem : transition ∈ (windowRules config zone).transitions) :
      (canAdd transition.atUtcSeconds transition.offsetBeforeSeconds = true ∧
          canAdd transition.atUtcSeconds transition.offsetAfterSeconds = true) ↔
        -2 ^ 63 ≤ transition.atUtcSeconds.toInt +
            Tzif.offsetAt zone.2 (transition.atUtcSeconds.toInt - 1) ∧
          -2 ^ 63 ≤ transition.atUtcSeconds.toInt +
            Tzif.offsetAt zone.2 transition.atUtcSeconds.toInt := by
    have cutoff := Int64.lt_iff_toInt_lt.mp (valid.2 _ mem).2
    have limit : kTzifTailCutoffUtcSeconds.toInt = 2147483647 := by
      decide
    obtain ⟨before, after⟩ := windowRules_change ok mem
    have before_lt := transition.offsetBeforeSeconds.toInt_lt
    have after_lt := transition.offsetAfterSeconds.toInt_lt
    rw [canAdd_iff, canAdd_iff, ← before, ← after]
    omega
  constructor
  · intro representable instant mem
    obtain ⟨transition, listed, rfl⟩ := (mem_changesIn ok instant).mp mem
    exact (fits listed).mp (representable transition listed)
  · intro fit transition mem
    exact (fits mem).mpr (fit _ ((mem_changesIn ok _).mpr ⟨transition, mem, rfl⟩))

theorem length_changesIn (ok : accepted zone = true) :
    (changesIn config zone.2).length = windowCount config zone := by
  obtain ⟨tables, -, describes, -⟩ := parseTzifZone_accepted ok
  have times : ((List.range (Tzif.version2Counts zone.2).time).map
      (Tzif.transitionTime zone.2)).Nodup := by
    rw [← describes.times]
    have ordered : (tables.times.map Int64.toInt).Pairwise (· < ·) := by
      rw [List.pairwise_map]
      exact describes.ordered.imp Int64.lt_iff_toInt_lt.mp
    exact ordered.imp ne_of_lt
  have instants : ((windowRules config zone).transitions.map fun transition =>
      transition.atUtcSeconds.toInt).Nodup := by
    have ordered := @ordered_windowRules zone config ok
    rw [Ordered, List.pairwise_map] at ordered
    rw [List.Nodup, List.pairwise_map]
    exact ordered.imp ne_of_lt
  have same : (changesIn config zone.2).Perm ((windowRules config zone).transitions.map
      fun transition => transition.atUtcSeconds.toInt) := by
    apply (List.perm_ext_iff_of_nodup (times.filter _) instants).mpr
    intro instant
    rw [List.mem_map]
    exact mem_changesIn ok instant
  rw [same.length_eq, List.length_map, ← windowCount_accepted ok]
  rfl

end Window

/-! ### Emitted rule sets -/

/-- The resolver accepts the rules, and finds no fault in them for a schedule that names them. -/
structure UsableRules (rules : TimezoneRules) : Prop where
  chain : hasValidTransitionChain rules = true
  resolves : rules.version ≠ [] → ∀ (schedule : WeeklyAlarmSchedule) (afterUtcSeconds : Int64),
    schedule.timezoneName = rules.name → schedule.timezoneRulesVersion = rules.version →
      (resolveNextOccurrence schedule rules afterUtcSeconds).status ≠ .invalidRules

section Resolver

variable {schedule : WeeklyAlarmSchedule} {rules : TimezoneRules} {afterUtcSeconds : Int64}

theorem status_resolveDate {candidateDay : Int64} {result : ResolvedOccurrence}
    (found : resolveDate schedule rules afterUtcSeconds candidateDay = some result) :
    result.status ≠ .invalidRules := by
  unfold resolveDate at found
  dsimp only at found
  split at found
  · cases found
  split at found
  · cases found
    exact nofun
  split at found
  · cases found
    exact nofun
  split at found
  · cases found
  split at found
  · cases found
  split at found
  · cases found
  split at found
  · cases found
    exact nofun
  · cases found
    exact nofun

theorem status_ne_invalidRules (name : rules.name ≠ []) (version : rules.version ≠ [])
    (same_name : schedule.timezoneName = rules.name)
    (same_version : schedule.timezoneRulesVersion = rules.version)
    (chain : hasValidTransitionChain rules = true) :
    (resolveNextOccurrence schedule rules afterUtcSeconds).status ≠ .invalidRules := by
  have usable := usable_iff.mpr ⟨name, version, same_name, same_version, chain⟩
  unfold resolveNextOccurrence
  split
  · exact nofun
  split
  · exact nofun
  dsimp only
  split
  · exact nofun
  cases found : (List.range 15).findSome? fun dayDelta => resolveDate schedule rules
      afterUtcSeconds _ with
  | none => exact nofun
  | some result =>
      obtain ⟨dayDelta, -, found⟩ := List.exists_of_findSome?_eq_some found
      exact status_resolveDate found

end Resolver

theorem name_ne_nil {zone : Text × ByteCodec.Bytes} {config : TzifAdapterConfig}
    (ok : accepted zone = true) : (windowRules config zone).name ≠ [] := by
  obtain ⟨tables, parsed, -⟩ := parseTzifZone_accepted ok
  rw [windowRules, parsed]
  change zone.1 ≠ []
  intro empty
  have failed : (parseTzifZone zone.1 zone.2).1.status = .invalidZoneName := by
    rw [parseTzifZone, parseRecord, secondBlock, empty]
    rfl
  rw [accepted, failed] at ok
  cases ok

theorem usable_windowRules {zone : Text × ByteCodec.Bytes} {config : TzifAdapterConfig}
    (ok : accepted zone = true) :
    UsableRules (windowRules config zone) ↔ WallTimesFit config zone.2 := by
  rw [← hasValidTransitionChain_windowRules ok]
  constructor
  · exact fun usable => usable.chain
  · intro chain
    refine ⟨chain, ?_⟩
    intro version schedule afterUtcSeconds same_name same_version
    exact status_ne_invalidRules (name_ne_nil ok) version same_name same_version chain

/-- The rule sets emitted for a window can all be used if and only if there are none because
the changes of the window exceed the budget, or the wall times next to each change of an
accepted record in the window are at least -2^63. -/
theorem emitted_rules_usable (zones : List (Text × ByteCodec.Bytes)) (config : TzifAdapterConfig) :
    (∀ rules ∈ (buildPinnedTimezoneRules zones config).zones, UsableRules rules) ↔
      config.maximumTotalTransitions <
          ((zones.filter accepted).map fun zone => (changesIn config zone.2).length).sum ∨
        ∀ zone ∈ zones, accepted zone = true → WallTimesFit config zone.2 := by
  have total : ((zones.filter accepted).map fun zone => (changesIn config zone.2).length).sum =
      windowTotal config zones := by
    rw [windowTotal]
    induction zones with
    | nil => rfl
    | cons zone zones ih =>
        cases ok : accepted zone with
        | true =>
            rw [List.filter_cons_of_pos ok, List.map_cons, List.map_cons, List.sum_cons,
              List.sum_cons, ih, length_changesIn ok]
        | false =>
            rw [List.filter_cons_of_neg (by simp [ok]), List.map_cons, List.sum_cons, ih,
              windowCount_rejected ok, Nat.zero_add]
  rw [total]
  obtain ⟨within, -, built⟩ | ⟨beyond, -, none⟩ := buildPinnedTimezoneRules_cases zones config
  · have emitted (rules : TimezoneRules) : rules ∈ (buildPinnedTimezoneRules zones config).zones ↔
        ∃ zone ∈ zones, accepted zone = true ∧ windowRules config zone = rules := by
      rw [built, sortByName, List.mem_mergeSort, List.mem_map]
      simp only [List.mem_filter, and_assoc]
    rw [or_iff_right (Nat.not_lt.mpr within)]
    constructor
    · intro usable zone mem ok
      exact (usable_windowRules ok).mp (usable _ ((emitted _).mpr ⟨zone, mem, ok, rfl⟩))
    · intro fit rules mem
      obtain ⟨zone, zone_mem, ok, rfl⟩ := (emitted rules).mp mem
      exact (usable_windowRules ok).mpr (fit zone zone_mem ok)
  · rw [none]
    exact ⟨fun _ => .inl beyond, fun _ => List.forall_mem_nil _⟩

/-- A record whose only transition is one second after the first representable instant. -/
def earlyRecord : ByteCodec.Bytes :=
  [0x54, 0x5a, 0x69, 0x66] ++ List.replicate 40 0 ++ [0x54, 0x5a, 0x69, 0x66, 0x32] ++
    List.replicate 27 0 ++ [0, 0, 0, 1, 0, 0, 0, 2, 0, 0, 0, 8] ++ [0x80, 0, 0, 0, 0, 0, 0, 1] ++
    [1] ++ [0xff, 0xff, 0xb9, 0xb0, 0, 0] ++ [0xff, 0xff, 0xc7, 0xc0, 1, 4] ++
    [0x45, 0x53, 0x54, 0, 0x45, 0x44, 0x54, 0]

def earlyWindow : TzifAdapterConfig where
  version := [0x61]
  fromUtcSeconds := Int64.minValue
  untilUtcSeconds := 0
  maximumTotalTransitions := 10

/-- The rules that the adapter makes of it, for a version, are refused by the resolver. -/
theorem earlyRecord_unusable : ∃ rules ∈
    (buildPinnedTimezoneRules [([0x4e, 0x59], earlyRecord)] earlyWindow).zones,
      rules.version ≠ [] ∧ hasValidTransitionChain rules = false ∧
        newYorkAlarm.timezoneName = rules.name ∧
        newYorkAlarm.timezoneRulesVersion = rules.version ∧
        (resolveNextOccurrence newYorkAlarm rules 0).status = .invalidRules := by
  have built : (buildPinnedTimezoneRules [([0x4e, 0x59], earlyRecord)] earlyWindow).zones =
      [{ name := [0x4e, 0x59], version := [0x61], initialUtcOffsetSeconds := -18000
         transitions := [{
          atUtcSeconds := Int64.minValue + 1
          offsetBeforeSeconds := -18000
          offsetAfterSeconds := -14400 }] }] := by
    decide +kernel
  rw [built]
  exact ⟨_, List.mem_singleton_self _, by decide +kernel⟩

end DawnDock
