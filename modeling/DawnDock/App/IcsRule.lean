import DawnDock.App.IcsImport
import DawnDock.Library.Collect
import DawnDock.Library.RecurrenceRule
import Mathlib.Tactic.IntervalCases

/-!
What `_daysFromRrule` accepts.

The parts of a text denote a recurrence rule (`Denotes`). The loop over the parts keeps
what they say so far (`Reads`), so a text that gives days denotes a rule without an end
and with an interval of 1, and the days are those the rule falls on (`daysFromRrule_some`).
-/

namespace DawnDock.App.Ics

open RecurrenceRule (Frequency Rule)

section Case

variable (toUpperCase : DartString → DartString)

/-- The key and the value of each part. -/
def ruleParts (text : DartString) : Option (List (DartString × DartString)) :=
  (text.splitOn 0x3b).mapM (cutAt 0x3d)

/-- What the parts say about a key. -/
def partValue (parts : List (DartString × DartString)) (key : String) : Option DartString :=
  (parts.find? fun part => toUpperCase part.1 == utf16 key).map Prod.snd

def ruleKeys : List DartString :=
  [utf16 "FREQ", utf16 "INTERVAL", utf16 "COUNT", utf16 "UNTIL", utf16 "BYDAY"]

def frequencyName : Frequency → DartString
  | .daily => utf16 "DAILY"
  | .weekly => utf16 "WEEKLY"

/-- The weekdays from Monday on. -/
def weekdayTokens : List DartString :=
  [utf16 "MO", utf16 "TU", utf16 "WE", utf16 "TH", utf16 "FR", utf16 "SA", utf16 "SU"]

def namedDays (value : DartString) : Set Int :=
  {w | ∃ token ∈ value.splitOn 0x2c, ∃ i : Nat,
    weekdayTokens[i]? = some (toUpperCase (trim token)) ∧ w = i}

/-- The rule that the parts spell. -/
structure Denotes (parts : List (DartString × DartString)) (rule : Rule) : Prop where
  distinct : (parts.map fun part => toUpperCase part.1).Nodup
  known : ∀ part ∈ parts, toUpperCase part.1 ∈ ruleKeys
  frequency : (partValue toUpperCase parts "FREQ").map toUpperCase =
    some (frequencyName rule.frequency)
  interval : ((partValue toUpperCase parts "INTERVAL").map intTryParse).getD (some 1) =
    some (rule.interval : Int)
  bounded : rule.bounded = ((partValue toUpperCase parts "COUNT").isSome ||
    (partValue toUpperCase parts "UNTIL").isSome)
  byDay : rule.byDay = (partValue toUpperCase parts "BYDAY").map (namedDays toUpperCase)
  tokens : ∀ value ∈ partValue toUpperCase parts "BYDAY", ∀ token ∈ value.splitOn 0x2c,
    toUpperCase (trim token) ∈ weekdayTokens

/-- The variables of the loop hold what the parts so far say. -/
structure Reads (state : RruleState) (parts : List (DartString × DartString)) : Prop where
  seenKeys : ∀ key, key ∈ state.seenKeys ↔ key ∈ parts.map fun part => toUpperCase part.1
  distinct : (parts.map fun part => toUpperCase part.1).Nodup
  known : ∀ part ∈ parts, toUpperCase part.1 ∈ ruleKeys
  freq : state.freq = (partValue toUpperCase parts "FREQ").map toUpperCase
  interval : ((partValue toUpperCase parts "INTERVAL").map intTryParse).getD (some 1) =
    some state.interval
  bounded : state.bounded = ((partValue toUpperCase parts "COUNT").isSome ||
    (partValue toUpperCase parts "UNTIL").isSome)
  bydaySeen : state.bydaySeen = (partValue toUpperCase parts "BYDAY").isSome
  byDays : ∀ iso, iso ∈ state.byDays ↔ ∃ value ∈ partValue toUpperCase parts "BYDAY",
    ∃ token ∈ value.splitOn 0x2c, tokenDay toUpperCase token = some iso
  tokens : ∀ value ∈ partValue toUpperCase parts "BYDAY", ∀ token ∈ value.splitOn 0x2c,
    (tokenDay toUpperCase token).isSome

end Case

variable {toUpperCase : DartString → DartString}

/-! ### Parts -/

theorem partValue_concat (parts : List (DartString × DartString)) (part : DartString × DartString)
    (key : String) :
    partValue toUpperCase (parts ++ [part]) key =
      (partValue toUpperCase parts key).or
        (if toUpperCase part.1 = utf16 key then some part.2 else none) := by
  unfold partValue
  rw [List.find?_append, List.find?_singleton]
  cases parts.find? fun part => toUpperCase part.1 == utf16 key with
  | none =>
      by_cases named : toUpperCase part.1 = utf16 key
      · rw [if_pos named, if_pos (beq_iff_eq.mpr named)]
        rfl
      · rw [if_neg named, if_neg fun same => named (beq_iff_eq.mp same)]
        rfl
  | some first => rfl

theorem isSome_partValue_concat (parts : List (DartString × DartString))
    (part : DartString × DartString) (key : String) :
    (partValue toUpperCase (parts ++ [part]) key).isSome =
      ((partValue toUpperCase parts key).isSome || toUpperCase part.1 = utf16 key) := by
  rw [partValue_concat, Option.isSome_or]
  split
  · rename_i named
    rw [decide_eq_true named]
    rfl
  · rename_i named
    rw [decide_eq_false named]
    rfl

theorem partValue_eq_none {parts : List (DartString × DartString)} {key : String}
    (unseen : utf16 key ∉ parts.map fun part => toUpperCase part.1) :
    partValue toUpperCase parts key = none := by
  rw [partValue, Option.map_eq_none_iff, List.find?_eq_none]
  intro part mem named
  exact unseen (List.mem_map.mpr ⟨part, mem, beq_iff_eq.mp named⟩)

/-- The loop over the tokens collects their weekdays. -/
theorem addTokens_ok {tokens : List DartString} {before after : Finset Int64}
    (run : addTokens toUpperCase before tokens = .ok after) :
    (∀ token ∈ tokens, (tokenDay toUpperCase token).isSome) ∧
      ∀ iso, iso ∈ after ↔ iso ∈ before ∨ ∃ token ∈ tokens, tokenDay toUpperCase token = some iso := by
  induction tokens generalizing before with
  | nil =>
      cases run
      simp
  | cons token rest ih =>
      unfold addTokens at run
      cases day : tokenDay toUpperCase token with
      | none =>
          rw [day] at run
          cases run
      | some here =>
          rw [day] at run
          obtain ⟨known, collected⟩ := ih run
          constructor
          · intro other mem
            rcases List.mem_cons.mp mem with rfl | later
            · rw [day]
              rfl
            · exact known other later
          · intro iso
            rw [collected, Finset.mem_insert, List.exists_mem_cons_iff, day, Option.some_inj]
            tauto

section Step

variable {state after : RruleState} {parts : List (DartString × DartString)}
  {key name value : DartString}

/-- What a part changes: the variable of its key. -/
theorem readPart_ok (run : readPart toUpperCase state key value = .ok after) :
    key ∈ ruleKeys ∧ after.seenKeys = state.seenKeys ∧
      after.freq = (if key = utf16 "FREQ" then some (toUpperCase value) else state.freq) ∧
      some after.interval =
        (if key = utf16 "INTERVAL" then intTryParse value else some state.interval) ∧
      after.bounded = (state.bounded || key = utf16 "COUNT" || key = utf16 "UNTIL") ∧
      after.bydaySeen = (state.bydaySeen || key = utf16 "BYDAY") ∧
      .ok after.byDays = (if key = utf16 "BYDAY" then
        addTokens toUpperCase state.byDays (value.splitOn 0x2c) else .ok state.byDays) := by
  unfold readPart at run
  by_cases freq : key = utf16 "FREQ"
  · subst freq
    cases run
    simp [ruleKeys, utf16_inj]
  rw [if_neg freq] at run
  by_cases interval : key = utf16 "INTERVAL"
  · subst interval
    rw [if_pos rfl] at run
    cases parsed : intTryParse value with
    | none =>
        rw [parsed] at run
        cases run
    | some count =>
        rw [parsed] at run
        dsimp only at run
        split at run
        · cases run
        · cases run
          simp [ruleKeys, utf16_inj]
  rw [if_neg interval] at run
  by_cases count : key = utf16 "COUNT"
  · subst count
    rw [if_pos rfl] at run
    split at run
    · cases run
    · cases run
      simp [ruleKeys, utf16_inj]
  rw [if_neg count] at run
  by_cases end_ : key = utf16 "UNTIL"
  · subst end_
    rw [if_pos rfl] at run
    split at run
    · cases run
    · cases run
      simp [ruleKeys, utf16_inj]
  rw [if_neg end_] at run
  by_cases byDay : key = utf16 "BYDAY"
  · subst byDay
    rw [if_pos rfl] at run
    split at run
    · cases run
    cases collected : addTokens toUpperCase state.byDays (value.splitOn 0x2c) with
    | error note =>
        rw [collected] at run
        cases run
    | ok byDays =>
        rw [collected] at run
        cases run
        simp [ruleKeys, utf16_inj]
  · rw [if_neg byDay] at run
    cases run

theorem Reads.part (reads : Reads toUpperCase state parts)
    (unseen : toUpperCase name ∉ state.seenKeys)
    (run : readPart toUpperCase { state with seenKeys := toUpperCase name :: state.seenKeys }
      (toUpperCase name) value = .ok after) :
    Reads toUpperCase after (parts ++ [(name, value)]) := by
  obtain ⟨is_key, seenKeys, freq, interval, bounded, bydaySeen, byDays⟩ := readPart_ok run
  have fresh : toUpperCase name ∉ parts.map fun part => toUpperCase part.1 := by
    rwa [← reads.seenKeys]
  have first {key : String} (named : toUpperCase name = utf16 key) :
      partValue toUpperCase parts key = none := partValue_eq_none (named ▸ fresh)
  constructor
  case seenKeys =>
    intro key
    rw [seenKeys, List.map_append, List.mem_append, ← reads.seenKeys, List.mem_cons, or_comm]
    simp
  case distinct =>
    rw [List.map_append, List.nodup_append]
    refine ⟨reads.distinct, by simp, ?_⟩
    rintro key seen other last rfl
    rw [List.map_singleton, List.mem_singleton] at last
    exact fresh (last ▸ seen)
  case known =>
    intro part mem
    rcases List.mem_append.mp mem with before | last
    · exact reads.known part before
    · rw [List.mem_singleton.mp last]
      exact is_key
  case freq =>
    rw [freq, partValue_concat]
    split
    · rename_i named
      rw [first named]
      rfl
    · rw [Option.or_none]
      exact reads.freq
  case interval =>
    rw [interval, partValue_concat]
    split
    · rename_i named
      rw [first named]
      rfl
    · rw [Option.or_none]
      exact reads.interval
  case bounded =>
    rw [bounded, isSome_partValue_concat, isSome_partValue_concat, reads.bounded]
    ac_rfl
  case bydaySeen =>
    rw [bydaySeen, isSome_partValue_concat, reads.bydaySeen]
  all_goals
    rw [partValue_concat]
    have before := reads.byDays
    split at byDays
  case byDays.isTrue named =>
    rw [first named] at before ⊢
    intro iso
    rw [(addTokens_ok byDays.symm).2, before, if_pos named]
    simp
  case byDays.isFalse named =>
    rw [if_neg named, Option.or_none, Except.ok.inj byDays]
    exact reads.byDays
  case tokens.isTrue named =>
    rw [first named, if_pos named]
    intro read own
    cases own
    exact (addTokens_ok byDays.symm).1
  case tokens.isFalse named =>
    rw [if_neg named, Option.or_none]
    exact reads.tokens

/-- The loop over the parts. -/
theorem Reads.foldlM {texts : List DartString} (reads : Reads toUpperCase state parts)
    (run : texts.foldlM (readRrulePart toUpperCase) state = .ok after) :
    ∃ behind, texts.mapM (cutAt 0x3d) = some behind ∧ Reads toUpperCase after (parts ++ behind) := by
  induction texts generalizing state parts with
  | nil =>
      cases run
      exact ⟨[], rfl, by rwa [List.append_nil]⟩
  | cons text rest ih =>
      rw [List.foldlM_cons] at run
      obtain ⟨next, read, run⟩ := Collect.of_bind_eq_ok run
      unfold readRrulePart at read
      split at read
      · cases read
      cases cut : cutAt 0x3d text with
      | none =>
          rw [cut] at read
          cases read
      | some part =>
          obtain ⟨name, value⟩ := part
          rw [cut] at read
          dsimp only at read
          split at read
          · cases read
          split at read
          · cases read
          rename_i unseen
          obtain ⟨behind, cuts, done⟩ := ih (reads.part (by simpa using unseen) read) run
          refine ⟨(name, value) :: behind, ?_, ?_⟩
          · rw [List.mapM_cons, cut, cuts]
            rfl
          · rwa [List.append_assoc] at done

end Step

theorem reads_empty : Reads toUpperCase {} [] where
  seenKeys := by simp
  distinct := .nil
  known := List.forall_mem_nil _
  freq := rfl
  interval := rfl
  bounded := rfl
  bydaySeen := rfl
  byDays := by simp [partValue]
  tokens := by simp [partValue]

/-! ### Days -/

/-- The weekdays of a mask, 0 for Monday. -/
def maskDays (days : Finset Int64) : Set Int := {w | ∃ iso ∈ days, iso.toInt = w + 1}

theorem tokenDay_eq_some {token : DartString} {iso : Int64} :
    tokenDay toUpperCase token = some iso ↔
      ∃ i : Nat, weekdayTokens[i]? = some (toUpperCase (trim token)) ∧ iso.toInt = i + 1 := by
  unfold tokenDay
  generalize toUpperCase (trim token) = name
  constructor
  · intro found
    obtain ⟨day, first, rfl⟩ := Option.map_eq_some_iff.mp found
    have listed := List.mem_of_find?_eq_some first
    have named := List.find?_some first
    rw [beq_iff_eq] at named
    subst named
    simp only [bydayToIso, List.mem_cons, List.not_mem_nil, or_false] at listed
    rcases listed with rfl | rfl | rfl | rfl | rfl | rfl | rfl
    exacts [⟨0, rfl, rfl⟩, ⟨1, rfl, rfl⟩, ⟨2, rfl, rfl⟩, ⟨3, rfl, rfl⟩, ⟨4, rfl, rfl⟩,
      ⟨5, rfl, rfl⟩, ⟨6, rfl, rfl⟩]
  · rintro ⟨i, named, value⟩
    have inside : i < 7 := (List.getElem?_eq_some_iff.mp named).1
    have iso_eq : iso = Int64.ofInt (i + 1) := by rw [← value, Int64.ofInt_toInt]
    interval_cases i
    all_goals
      cases named
      rw [iso_eq]
      simp [bydayToIso, utf16_inj]

theorem isSome_tokenDay {token : DartString} :
    (tokenDay toUpperCase token).isSome ↔ toUpperCase (trim token) ∈ weekdayTokens := by
  rw [Option.isSome_iff_exists, List.mem_iff_getElem?]
  constructor
  · rintro ⟨iso, day⟩
    obtain ⟨i, named, -⟩ := tokenDay_eq_some.mp day
    exact ⟨i, named⟩
  · rintro ⟨i, named⟩
    have inside : i < 7 := (List.getElem?_eq_some_iff.mp named).1
    refine ⟨Int64.ofInt (i + 1), tokenDay_eq_some.mpr ⟨i, named, ?_⟩⟩
    exact Int64.toInt_ofInt_of_le (by omega) (by omega)

theorem maskDays_singleton {iso : Int64} {w : Int} (iso_eq : iso.toInt = w + 1) :
    maskDays {iso} = {w} := by
  ext other
  simp only [maskDays, Finset.mem_singleton, exists_eq_left, iso_eq, Set.mem_ofPred_eq,
    Set.mem_singleton_iff]
  omega

theorem maskDays_all : maskDays {1, 2, 3, 4, 5, 6, 7} = {w | 0 ≤ w ∧ w < 7} := by
  ext w
  simp only [maskDays, Finset.mem_insert, Finset.mem_singleton, exists_eq_or_imp, exists_eq_left,
    Set.mem_ofPred_eq, Int64.reduceToInt]
  omega

/-- The days of the tokens are the days the value names. -/
theorem maskDays_tokens {days : Finset Int64} {value : DartString}
    (collected : ∀ iso, iso ∈ days ↔
      ∃ token ∈ value.splitOn 0x2c, tokenDay toUpperCase token = some iso) :
    maskDays days = namedDays toUpperCase value := by
  ext w
  constructor
  · rintro ⟨iso, mem, value_eq⟩
    obtain ⟨token, listed, day⟩ := (collected iso).mp mem
    obtain ⟨i, named, iso_eq⟩ := tokenDay_eq_some.mp day
    exact ⟨token, listed, i, named, by omega⟩
  · rintro ⟨token, listed, i, named, rfl⟩
    have inside : i < 7 := (List.getElem?_eq_some_iff.mp named).1
    have iso_eq : (Int64.ofInt (i + 1)).toInt = i + 1 :=
      Int64.toInt_ofInt_of_le (by omega) (by omega)
    refine ⟨Int64.ofInt (i + 1), (collected _).mpr ⟨token, listed, ?_⟩, iso_eq⟩
    exact tokenDay_eq_some.mpr ⟨i, named, iso_eq⟩

theorem namedDays_subset {value : DartString} {w : Int}
    (mem : w ∈ namedDays toUpperCase value) : 0 ≤ w ∧ w < 7 := by
  obtain ⟨token, -, i, named, rfl⟩ := mem
  have inside : i < 7 := (List.getElem?_eq_some_iff.mp named).1
  omega

section Denoted

variable {state : RruleState} {parts : List (DartString × DartString)} {frequency : Frequency}

/-- The rule of parts that have neither an end nor an interval above 1. -/
def denoted (toUpperCase : DartString → DartString) (parts : List (DartString × DartString))
    (frequency : Frequency) : Rule where
  frequency := frequency
  interval := 1
  bounded := false
  byDay := (partValue toUpperCase parts "BYDAY").map (namedDays toUpperCase)

theorem Reads.denotes (reads : Reads toUpperCase state parts)
    (freq : state.freq = some (frequencyName frequency)) (interval : state.interval = 1)
    (bounded : state.bounded = false) :
    Denotes toUpperCase parts (denoted toUpperCase parts frequency) where
  distinct := reads.distinct
  known := reads.known
  frequency := by rw [← reads.freq, freq, denoted]
  interval := by rw [reads.interval, interval, denoted, Nat.cast_one]
  bounded := by rw [← reads.bounded, bounded, denoted]
  byDay := rfl
  tokens := fun value own token listed => isSome_tokenDay.mp (reads.tokens value own token listed)

/-- With `BYDAY` the days are the ones it names, whatever the frequency. -/
theorem Reads.weekdays_byDay (reads : Reads toUpperCase state parts)
    (seen : state.bydaySeen = true) (start : Int) :
    maskDays state.byDays = (denoted toUpperCase parts frequency).weekdays start := by
  rw [reads.bydaySeen, Option.isSome_iff_exists] at seen
  obtain ⟨value, own⟩ := seen
  have collected := reads.byDays
  simp only [own, Option.mem_def, Option.some_inj, exists_eq_left'] at collected
  rw [maskDays_tokens collected, RecurrenceRule.weekdays_of_interval_one rfl]
  have named : (denoted toUpperCase parts frequency).named start = namedDays toUpperCase value := by
    unfold Rule.named denoted
    rw [own]
    cases frequency <;> rfl
  ext w
  rw [named]
  constructor
  · intro mem
    exact ⟨namedDays_subset mem, mem⟩
  · rintro ⟨-, mem⟩
    exact mem

theorem Reads.partValue_none (reads : Reads toUpperCase state parts)
    (unseen : ¬ state.bydaySeen = true) : partValue toUpperCase parts "BYDAY" = none := by
  rwa [reads.bydaySeen, Option.not_isSome_iff_eq_none] at unseen

/-- Without `BYDAY` a daily rule falls on every day. -/
theorem Reads.weekdays_daily (reads : Reads toUpperCase state parts)
    (unseen : ¬ state.bydaySeen = true) (start : Int) :
    maskDays {1, 2, 3, 4, 5, 6, 7} = (denoted toUpperCase parts .daily).weekdays start := by
  rw [maskDays_all, RecurrenceRule.weekdays_of_interval_one rfl]
  unfold Rule.named denoted
  rw [reads.partValue_none unseen]
  simp

/-- Without `BYDAY` a weekly rule falls on the day of its start. -/
theorem Reads.weekdays_weekly (reads : Reads toUpperCase state parts)
    (unseen : ¬ state.bydaySeen = true) {start : Int} {iso : Int64}
    (iso_eq : iso.toInt = Calendar.weekday start + 1) :
    maskDays {iso} = (denoted toUpperCase parts .weekly).weekdays start := by
  rw [maskDays_singleton iso_eq, RecurrenceRule.weekdays_of_interval_one rfl]
  unfold Rule.named denoted
  rw [reads.partValue_none unseen]
  ext w
  constructor
  · rintro rfl
    exact ⟨RecurrenceRule.weekday_mem start, rfl⟩
  · rintro ⟨-, same⟩
    exact same

/-- Parts that give days denote a rule, and the days are those that it falls on. -/
theorem Reads.ruleDays_some (reads : Reads toUpperCase state parts) {start : Int} {iso : Int64}
    (iso_eq : iso.toInt = Calendar.weekday start + 1) {notes : List Note} {days : Finset Int64}
    (run : ruleDays state iso = (notes, some days)) :
    ∃ denoted, Denotes toUpperCase parts denoted ∧ denoted.interval = 1 ∧
      denoted.bounded = false ∧ maskDays days = denoted.weekdays start ∧
      (denoted.frequency = .weekly → denoted.byDay = none →
        { code := .singleOccurrenceWeekly } ∈ notes) := by
  unfold ruleDays at run
  cases freq : state.freq with
  | none =>
      rw [freq] at run
      cases run
  | some name =>
      rw [freq] at run
      dsimp only at run
      split at run
      · cases run
      rename_i interval
      rw [not_not] at interval
      split at run
      · cases run
      rename_i bounded
      rw [Bool.not_eq_true] at bounded
      split at run
      · rename_i daily
        subst daily
        cases run
        refine ⟨denoted toUpperCase parts .daily, reads.denotes freq interval bounded, rfl, rfl,
          ?_, fun weekly => by cases weekly⟩
        split
        · exact reads.weekdays_byDay ‹_› start
        · exact reads.weekdays_daily ‹_› start
      split at run
      · rename_i weekly
        subst weekly
        refine ⟨denoted toUpperCase parts .weekly, reads.denotes freq interval bounded, rfl, rfl, ?_⟩
        split at run
        · rename_i seen
          cases run
          refine ⟨reads.weekdays_byDay seen start, fun _ unseen => ?_⟩
          rw [reads.bydaySeen, Option.map_eq_none_iff.mp unseen] at seen
          cases seen
        · rename_i unseen
          cases run
          exact ⟨reads.weekdays_weekly unseen iso_eq, fun _ _ => List.mem_cons_self⟩
      · cases run

end Denoted

/-- A rule that gives days is one without an end, in steps of 1, and gives the days it
falls on. -/
theorem daysFromRrule_some {rule : Option DartString} {start : Int} {iso : Int64}
    (iso_eq : iso.toInt = Calendar.weekday start + 1) {notes : List Note} {days : Finset Int64}
    (run : daysFromRrule toUpperCase rule iso = (notes, some days)) :
    rule = none ∧ maskDays days = {Calendar.weekday start} ∧
        { code := .singleOccurrenceWeekly } ∈ notes ∨
      ∃ text parts denoted, rule = some text ∧ ruleParts text = some parts ∧
        Denotes toUpperCase parts denoted ∧ denoted.interval = 1 ∧ denoted.bounded = false ∧
        maskDays days = denoted.weekdays start ∧
        (denoted.frequency = .weekly → denoted.byDay = none →
          { code := .singleOccurrenceWeekly } ∈ notes) := by
  cases rule with
  | none =>
      cases run
      exact .inl ⟨rfl, maskDays_singleton iso_eq, List.mem_cons_self⟩
  | some text =>
      right
      unfold daysFromRrule at run
      dsimp only at run
      cases read : (text.splitOn 0x3b).foldlM (readRrulePart toUpperCase) {} with
      | error note =>
          rw [read] at run
          cases run
      | ok state =>
          rw [read] at run
          obtain ⟨parts, cuts, reads⟩ := reads_empty.foldlM read
          rw [List.nil_append] at reads
          obtain ⟨denoted, means⟩ := reads.ruleDays_some iso_eq run
          exact ⟨text, parts, denoted, rfl, cuts, means⟩

end DawnDock.App.Ics
