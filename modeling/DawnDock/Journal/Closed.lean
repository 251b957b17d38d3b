import DawnDock.Journal.Step
import Mathlib.Logic.Relation

/-!
Occurrences that are over.

`Closed` is what the journal keeps of a terminal occurrence for good: its alarm's
watermark. The transitions that end an occurrence close it, and no step of a tick opens
it again (`Closed.step`). Its record is kept until newer ones evict it: `Behind` counts
those, and `Follows` says that a journal has only taken newer ones in.
-/

namespace DawnDock

section

variable {alarms : List StoredAlarmDefinition} {observation : RuntimeTickObservation}
  {state final : PersistentAlarmState} {edges : List AlertEdge} {alarmId occurrenceId : Text}
  {instant : Int64}

theorem atOrBelowWatermark_iff : atOrBelowWatermark state alarmId instant = true ↔
    ∃ w, findHighWatermark state alarmId = some w ∧ instant ≤ w.scheduledUtcSeconds := by
  simp [atOrBelowWatermark, Option.any_eq_true]

theorem atOrBelowWatermark_le {earlier : Int64}
    (h : atOrBelowWatermark state alarmId instant = true) (le : earlier ≤ instant) :
    atOrBelowWatermark state alarmId earlier = true := by
  obtain ⟨w, found, bound⟩ := atOrBelowWatermark_iff.mp h
  exact atOrBelowWatermark_iff.mpr ⟨w, found, Int64.le_trans le bound⟩

/-- An entry of the raised table is where it was, or higher. -/
theorem find_raiseHighWatermark_le {raised : Text} {instant : Int64}
    {watermarks : List TerminalHighWatermark} {w : TerminalHighWatermark}
    (found : watermarks.find? (·.alarmId == alarmId) = some w) :
    ∃ w', (raiseHighWatermark raised instant watermarks).find? (·.alarmId == alarmId) = some w' ∧
      w.scheduledUtcSeconds ≤ w'.scheduledUtcSeconds := by
  induction watermarks with
  | nil => cases found
  | cons first rest ih =>
      rw [List.find?_cons] at found
      simp only [raiseHighWatermark]
      split
      · -- The raised entry keeps its alarm id.
        by_cases higher : instant > first.scheduledUtcSeconds
        · rw [if_pos higher, List.find?_cons]
          cases own : first.alarmId == alarmId with
          | true =>
              rw [own] at found
              obtain rfl := Option.some.inj found
              exact ⟨_, rfl, Int64.le_of_lt higher⟩
          | false =>
              rw [own] at found
              exact ⟨w, found, Int64.le_refl _⟩
        · rw [if_neg higher, List.find?_cons]
          exact ⟨w, found, Int64.le_refl _⟩
      · rw [List.find?_cons]
        cases own : first.alarmId == alarmId with
        | true =>
            rw [own] at found
            obtain rfl := Option.some.inj found
            exact ⟨_, rfl, Int64.le_refl _⟩
        | false =>
            rw [own] at found
            exact ih found

/-- Recording a watermark hides no instant. -/
theorem atOrBelowWatermark_record {raised : Text} {mark : Int64} {occurrence : TerminalOccurrence}
    (h : atOrBelowWatermark state alarmId instant = true) :
    atOrBelowWatermark (appendTerminal (recordTerminalHighWatermark state raised mark) occurrence)
      alarmId instant = true := by
  obtain ⟨w, found, bound⟩ := atOrBelowWatermark_iff.mp h
  obtain ⟨w', found', higher⟩ := @find_raiseHighWatermark_le alarmId raised mark _ _ found
  refine atOrBelowWatermark_iff.mpr ⟨w', ?_, Int64.le_trans bound higher⟩
  rw [findHighWatermark, appendTerminal_watermarks]
  exact found'

/-- The recorded instant is at its watermark. -/
theorem atOrBelowWatermark_record_self (state : PersistentAlarmState) (alarmId : Text)
    (instant : Int64) (occurrence : TerminalOccurrence) :
    atOrBelowWatermark (appendTerminal (recordTerminalHighWatermark state alarmId instant)
      occurrence) alarmId instant = true := by
  obtain ⟨w, found, bound⟩ :=
    find_raiseHighWatermark_self alarmId instant state.terminalHighWatermarks
  refine atOrBelowWatermark_iff.mpr ⟨w, ?_, bound⟩
  rw [findHighWatermark, appendTerminal_watermarks]
  exact found

/-! ### Records -/

/-- The occurrence has a terminal record. -/
def Recorded (journal : PersistentAlarmState) (occurrenceId : Text) : Prop :=
  occurrenceId ∈ journal.terminal.map (·.occurrenceId)

/-- The appended occurrence has a record. -/
theorem recorded_appendTerminal_self (state : PersistentAlarmState)
    (occurrence : TerminalOccurrence) :
    Recorded (appendTerminal state occurrence) occurrence.occurrenceId := by
  by_cases recorded : occurrence.occurrenceId ∈ state.terminal.map (·.occurrenceId)
  · have any : state.terminal.any (·.occurrenceId == occurrence.occurrenceId) = true := by
      simpa using recorded
    rwa [appendTerminal, if_pos any]
  · have last := appendTerminal_getLast? recorded
    exact List.mem_map.mpr ⟨occurrence, List.mem_of_getLast? last, rfl⟩

/-- The record of the occurrence is kept, with at most `count` newer ones behind it. -/
def Behind (count : ℕ) (journal : PersistentAlarmState) (occurrenceId : Text) : Prop :=
  ∃ older record newer, journal.terminal = older ++ record :: newer ∧
    record.occurrenceId = occurrenceId ∧ newer.length ≤ count

theorem Behind.recorded {count : ℕ} (h : Behind count state occurrenceId) :
    Recorded state occurrenceId := by
  obtain ⟨older, record, newer, list, rfl, -⟩ := h
  exact List.mem_map.mpr ⟨record, by simp [list], rfl⟩

theorem Behind.mono {count more : ℕ} (h : Behind count state occurrenceId) (le : count ≤ more) :
    Behind more state occurrenceId := by
  obtain ⟨older, record, newer, list, name, few⟩ := h
  exact ⟨older, record, newer, list, name, few.trans le⟩

/-- A new record is the last one. -/
theorem behind_appendTerminal_self {occurrence : TerminalOccurrence}
    (fresh : ¬ Recorded state occurrence.occurrenceId) :
    Behind 0 (appendTerminal state occurrence) occurrence.occurrenceId := by
  obtain ⟨older, list⟩ := List.getLast?_eq_some_iff.mp (appendTerminal_getLast? fresh)
  exact ⟨older, occurrence, [], list, rfl, le_refl _⟩

/-- One more record pushes it back, and out of the list from its first place only. -/
theorem Behind.append {count : ℕ} (h : Behind count state occurrenceId)
    (occurrence : TerminalOccurrence) :
    Behind (count + 1) (appendTerminal state occurrence) occurrenceId ∨
      kRecentTerminalRetention ≤ count + 1 := by
  by_cases known : state.terminal.any (·.occurrenceId == occurrence.occurrenceId) = true
  · rw [appendTerminal, if_pos known]
    exact .inl (h.mono (Nat.le_succ _))
  by_cases full : kRecentTerminalRetention ≤ count + 1
  · exact .inr full
  obtain ⟨older, record, newer, list, name, few⟩ := h
  have whole : state.terminal ++ [occurrence] = older ++ record :: (newer ++ [occurrence]) := by
    rw [list, List.append_assoc, List.cons_append]
  have spared : (older ++ record :: (newer ++ [occurrence])).length - kRecentTerminalRetention ≤
      older.length := by
    simp only [List.length_append, List.length_cons, List.length_nil]
    omega
  refine .inl ⟨_, record, newer ++ [occurrence],
    Eq.trans ?_ (List.drop_append_of_le_length spared), name, ?_⟩
  · rw [appendTerminal, if_neg known, ← whole]
  · rw [List.length_append, List.length_singleton]
    exact Nat.succ_le_succ few

/-- The list after an append depends on the list alone. -/
theorem appendTerminal_congr {other : PersistentAlarmState} (same : state.terminal = other.terminal)
    (occurrence : TerminalOccurrence) :
    (appendTerminal state occurrence).terminal = (appendTerminal other occurrence).terminal := by
  unfold appendTerminal
  rw [same]
  split
  · exact same
  · rfl

theorem missOccurrence_terminal (state : PersistentAlarmState) (alarm : StoredAlarmDefinition)
    (reason : TerminalReason) : (missOccurrence state alarm reason).terminal =
      (appendTerminal state ⟨makeOccurrenceId alarm.definition, reason⟩).terminal :=
  @appendTerminal_congr (recordTerminalHighWatermark state alarm.id alarm.scheduledUtcSeconds)
    state rfl _

theorem closeActive_terminal (state : PersistentAlarmState) (active : ActiveOccurrence)
    (reason : TerminalReason) : (closeActive state active reason).terminal =
      (appendTerminal state ⟨active.occurrenceId, reason⟩).terminal :=
  @appendTerminal_congr
    (recordTerminalHighWatermark state active.alarmId active.scheduledUtcSeconds) state rfl _

/-- The journal has only taken newer records in since `before`. -/
def Follows (before after : PersistentAlarmState) : Prop :=
  Relation.ReflTransGen (fun state next : PersistentAlarmState =>
    next.terminal = state.terminal ∨
      ∃ record, next.terminal = (appendTerminal state record).terminal) before after

theorem TickStep.follows (step : TickStep alarms observation state edges final) :
    Follows state final := by
  refine .single ?_
  cases step with
  | admitted | rerung | recovered => exact .inl rfl
  | missed => exact .inr ⟨_, missOccurrence_terminal _ _ _⟩
  | timedOut | expired => exact .inr ⟨_, closeActive_terminal _ _ _⟩

/-! ### Closing -/

/-- The occurrence is over: its alarm's watermark covers its instant, and the alarm is not
active for it any more. -/
structure Closed (journal : PersistentAlarmState) (alarmId : Text) (instant : Int64) :
    Prop where
  watermark : atOrBelowWatermark journal alarmId instant = true
  behind : ∀ a ∈ journal.active, a.alarmId = alarmId → instant < a.scheduledUtcSeconds

theorem closed_closeActive {active : ActiveOccurrence} (reason : TerminalReason) :
    Closed (closeActive state active reason) active.alarmId active.scheduledUtcSeconds where
  watermark := atOrBelowWatermark_record_self _ _ _ _
  behind := by simp [closeActive]

theorem closed_missOccurrence {alarm : StoredAlarmDefinition} (idle : state.active = none)
    (reason : TerminalReason) :
    Closed (missOccurrence state alarm reason) alarm.id alarm.scheduledUtcSeconds where
  watermark := atOrBelowWatermark_record_self _ _ _ _
  behind a held := by
    rw [missOccurrence, appendTerminal_active] at held
    rw [show (recordTerminalHighWatermark _ _ _).active = none from idle] at held
    cases held

theorem Closed.miss (h : Closed state alarmId instant) (alarm : StoredAlarmDefinition)
    (reason : TerminalReason) :
    Closed (missOccurrence state alarm reason) alarmId instant where
  watermark := atOrBelowWatermark_record h.watermark
  behind a held := by
    rw [missOccurrence, appendTerminal_active] at held
    exact h.behind a held

/-- A step keeps what is over. -/
theorem Closed.step (h : Closed state alarmId instant)
    (step : TickStep alarms observation state edges final) :
    Closed final alarmId instant := by
  have ⟨watermark, behind⟩ := h
  cases step with
  | admitted eligible =>
      refine ⟨watermark, ?_⟩
      rintro a held rfl
      obtain rfl := Option.some.inj held
      by_contra reached
      have below := atOrBelowWatermark_le watermark (Int64.not_lt.mp reached)
      exact absurd (eligible.unjournaled.2.symm.trans below) (by simp)
  | missed reason eligible => exact h.miss _ reason
  | timedOut held =>
      exact ⟨atOrBelowWatermark_record watermark, by simp [closeActive]⟩
  | expired held =>
      exact ⟨atOrBelowWatermark_record watermark, by simp [closeActive]⟩
  | @rerung active deadline held | @recovered active elapsed anchor held =>
      refine ⟨watermark, ?_⟩
      rintro a updated rfl
      obtain rfl := Option.some.inj updated
      exact behind active held rfl

/-! ### Batches -/

theorem foldlM_journalMissed_active {older : List StoredAlarmDefinition}
    (h : older.foldlM journalMissed state = some final) : final.active = state.active := by
  induction older generalizing state with
  | nil =>
      cases h
      rfl
  | cons alarm rest ih =>
      obtain ⟨middle, missed, rest⟩ := Option.bind_eq_some_iff.mp h
      obtain ⟨-, rfl⟩ := journalMissed_eq_some missed
      rw [ih rest, missOccurrence, appendTerminal_active]
      rfl

theorem Closed.foldlM_journalMissed {older : List StoredAlarmDefinition}
    (h : Closed state alarmId instant)
    (missed : older.foldlM journalMissed state = some final) :
    Closed final alarmId instant := by
  induction older generalizing state with
  | nil =>
      cases missed
      exact h
  | cons alarm rest ih =>
      obtain ⟨middle, first, rest⟩ := Option.bind_eq_some_iff.mp missed
      obtain ⟨-, rfl⟩ := journalMissed_eq_some first
      exact ih (h.miss alarm .invalidTime) rest

/-- A batch closes all its older occurrences. -/
theorem closed_foldlM_journalMissed {older : List StoredAlarmDefinition}
    (idle : state.active = none) (missed : older.foldlM journalMissed state = some final) :
    ∀ alarm ∈ older, Closed final alarm.id alarm.scheduledUtcSeconds := by
  induction older generalizing state with
  | nil => simp
  | cons first rest ih =>
      obtain ⟨middle, closing, rest⟩ := Option.bind_eq_some_iff.mp missed
      obtain ⟨-, rfl⟩ := journalMissed_eq_some closing
      intro alarm mem
      rcases List.mem_cons.mp mem with rfl | mem
      · exact (closed_missOccurrence idle .invalidTime).foldlM_journalMissed rest
      · refine ih ?_ rest alarm mem
        rw [missOccurrence, appendTerminal_active]
        exact idle

/-- A batch journals every candidate: the newest one rings, or is over as the others are. -/
theorem reconcileJournal_eq_some {older : List StoredAlarmDefinition}
    {newest : StoredAlarmDefinition} {newestRings : Bool} {wallUtcSeconds monotonicSeconds : Int64}
    (h : reconcileJournal state older newest newestRings wallUtcSeconds monotonicSeconds =
      some final) : ∃ middle, older.foldlM journalMissed state = some middle ∧
        canTrackTerminal middle newest.id = true ∧
        final = if newestRings then
          { middle with
            active := some (admittedOccurrence newest wallUtcSeconds monotonicSeconds) }
          else missOccurrence middle newest .invalidTime := by
  simp only [reconcileJournal, Option.bind_eq_bind, Option.bind_eq_some_iff] at h
  obtain ⟨middle, missed, closing⟩ := h
  refine ⟨middle, missed, ?_⟩
  cases newestRings with
  | true =>
      simp only [if_true, Option.bind_eq_some_iff] at closing
      obtain ⟨_, -, ring⟩ := closing
      simp only [beginRecoveredRing] at ring
      split at ring
      · cases ring
      split at ring
      · cases ring
      · rename_i room
        cases ring
        exact ⟨by simpa using room, rfl⟩
  | false =>
      simp only [Bool.false_eq_true, if_false] at closing
      exact journalMissed_eq_some closing

end

end DawnDock
