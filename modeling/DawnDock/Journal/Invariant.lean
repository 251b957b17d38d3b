import DawnDock.Journal.Step

/-!
The journal invariant and the ledger.

`JournalInv` holds of every journal the engine can produce: the validator accepts
it, the active occurrence lies above its alarm's watermark and its terminal
record still has room, and every recorded occurrence is named after an alarm
definition. `Advances` is what a step does to the ledger of scheduled instants:
nothing covered is ever uncovered, and an occurrence journaled for the first time
was not covered before. `TickStep.sound` and `ControlStep.sound` prove both of
every step, by three cases: an occurrence is terminated, admitted or updated.
-/

namespace DawnDock

/-! ### The invariant -/

/-- The watermark table records the alarm's instant. -/
def Watermarked (state : PersistentAlarmState) (alarmId : Text) (instant : Int64) : Prop :=
  ∃ w ∈ state.terminalHighWatermarks, w.alarmId = alarmId ∧ instant ≤ w.scheduledUtcSeconds

/-- The invariant of every journal the engine produces. -/
structure JournalInv (state : PersistentAlarmState) : Prop where
  valid : ValidJournal state
  named : ∀ a ∈ state.active, ∃ d : AlarmDefinition, a.alarmId = d.id ∧
    a.scheduledUtcSeconds = d.scheduledUtcSeconds ∧ a.occurrenceId = makeOccurrenceId d
  recorded : ∀ t ∈ state.terminal, ∃ d : AlarmDefinition, t.occurrenceId = makeOccurrenceId d ∧
    Watermarked state d.id d.scheduledUtcSeconds
  above : ∀ a ∈ state.active, ¬ Watermarked state a.alarmId a.scheduledUtcSeconds
  room : ∀ a ∈ state.active, canTrackTerminal state a.alarmId = true

theorem journalInv_empty : JournalInv {} := by
  constructor
  · exact validJournal_empty
  all_goals simp

/-! ### The ledger -/

/-- An instant at or below the alarm's watermark or its active occurrence. -/
def Covered (state : PersistentAlarmState) (alarmId : Text) (instant : Int64) : Prop :=
  Watermarked state alarmId instant ∨
    ∃ a ∈ state.active, a.alarmId = alarmId ∧ instant ≤ a.scheduledUtcSeconds

/-- The occurrence of a definition is active or terminal. -/
def Journaled (state : PersistentAlarmState) (d : AlarmDefinition) : Prop :=
  (∃ a ∈ state.active, a.occurrenceId = makeOccurrenceId d) ∨
    makeOccurrenceId d ∈ state.terminal.map (·.occurrenceId)

theorem Watermarked.le {state : PersistentAlarmState} {alarmId : Text} {instant earlier : Int64}
    (h : Watermarked state alarmId instant) (le : earlier ≤ instant) :
    Watermarked state alarmId earlier := by
  obtain ⟨w, mem, id, bound⟩ := h
  exact ⟨w, mem, id, Int64.le_trans le bound⟩

theorem Covered.le {state : PersistentAlarmState} {alarmId : Text} {instant earlier : Int64}
    (h : Covered state alarmId instant) (le : earlier ≤ instant) :
    Covered state alarmId earlier := by
  rcases h with watermarked | ⟨a, held, id, bound⟩
  · exact .inl (watermarked.le le)
  · exact .inr ⟨a, held, id, Int64.le_trans le bound⟩

/-- A terminal occurrence lies at or below its alarm's watermark. -/
theorem JournalInv.watermarked {state : PersistentAlarmState} (inv : JournalInv state)
    {d : AlarmDefinition} (h : makeOccurrenceId d ∈ state.terminal.map (·.occurrenceId)) :
    Watermarked state d.id d.scheduledUtcSeconds := by
  obtain ⟨t, mem, same⟩ := List.mem_map.mp h
  obtain ⟨d', name, watermarked⟩ := inv.recorded t mem
  obtain ⟨sameId, -, sameInstant⟩ := makeOccurrenceId_inj (name.symm.trans same)
  rwa [sameId, sameInstant] at watermarked

/-- A journaled occurrence is covered. -/
theorem JournalInv.covered {state : PersistentAlarmState} (inv : JournalInv state)
    {d : AlarmDefinition} (h : Journaled state d) :
    Covered state d.id d.scheduledUtcSeconds := by
  rcases h with ⟨a, held, same⟩ | terminal
  · obtain ⟨d', id, instant, name⟩ := inv.named a held
    obtain ⟨sameId, -, sameInstant⟩ := makeOccurrenceId_inj (name.symm.trans same)
    exact .inr ⟨a, held, id.trans sameId, by rw [instant, sameInstant]; exact Int64.le_refl _⟩
  · exact .inl (inv.watermarked terminal)

/-- A terminal occurrence is not active. -/
theorem JournalInv.not_active {state : PersistentAlarmState} (inv : JournalInv state)
    {d : AlarmDefinition} (settled : Watermarked state d.id d.scheduledUtcSeconds) :
    ∀ a ∈ state.active, a.occurrenceId ≠ makeOccurrenceId d := by
  intro a held same
  obtain ⟨d', id, instant, name⟩ := inv.named a held
  obtain ⟨sameId, -, sameInstant⟩ := makeOccurrenceId_inj (name.symm.trans same)
  refine inv.above a held ?_
  rwa [id, instant, sameId, sameInstant]

/-- What a step does to the ledger. -/
structure Advances (alarms : List StoredAlarmDefinition) (before after : PersistentAlarmState) :
    Prop where
  watermarked : ∀ {id instant}, Watermarked before id instant → Watermarked after id instant
  covered : ∀ {id instant}, Covered before id instant → Covered after id instant
  journaled : ∀ {d}, Journaled after d → Journaled before d ∨
    (∃ alarm ∈ alarms, makeOccurrenceId alarm.definition = makeOccurrenceId d) ∧
      ¬ Covered before d.id d.scheduledUtcSeconds

theorem Advances.refl (alarms : List StoredAlarmDefinition) (state : PersistentAlarmState) :
    Advances alarms state state := ⟨id, id, .inl⟩

theorem Advances.trans {alarms : List StoredAlarmDefinition}
    {before middle after : PersistentAlarmState} (first : Advances alarms before middle)
    (second : Advances alarms middle after) : Advances alarms before after where
  watermarked h := second.watermarked (first.watermarked h)
  covered h := second.covered (first.covered h)
  journaled h := by
    rcases second.journaled h with earlier | ⟨alarm, fresh⟩
    · exact first.journaled earlier
    · exact .inr ⟨alarm, fun covered => fresh (first.covered covered)⟩

/-! ### Terminating an occurrence -/

theorem raiseHighWatermark_ids (raised : Text) (instant : Int64)
    (watermarks : List TerminalHighWatermark) :
    (raiseHighWatermark raised instant watermarks).map (·.alarmId) =
      if raised ∈ watermarks.map (·.alarmId) then watermarks.map (·.alarmId)
      else watermarks.map (·.alarmId) ++ [raised] := by
  induction watermarks with
  | nil => rfl
  | cons first rest ih =>
      by_cases same : first.alarmId = raised
      · subst same
        simp only [raiseHighWatermark, beq_self_eq_true, if_true, List.map_cons, List.mem_cons,
          true_or]
        split <;> rfl
      · simp only [raiseHighWatermark, beq_iff_eq, same, if_false, List.map_cons, ih,
          List.mem_cons, Ne.symm same, false_or]
        split <;> rfl

theorem canTrackTerminal_iff {state : PersistentAlarmState} {alarmId : Text} :
    canTrackTerminal state alarmId = true ↔
      alarmId ∈ state.terminalHighWatermarks.map (·.alarmId) ∨
        state.terminalHighWatermarks.length < kTerminalHighWatermarkCapacity := by
  simp [canTrackTerminal]

/-- The journal after the occurrence of `d` reached a terminal state. -/
def terminate (state : PersistentAlarmState) (d : AlarmDefinition) (reason : TerminalReason) :
    PersistentAlarmState :=
  { appendTerminal (recordTerminalHighWatermark state d.id d.scheduledUtcSeconds)
      ⟨makeOccurrenceId d, reason⟩ with active := none }

theorem terminate_watermarks (state : PersistentAlarmState) (d : AlarmDefinition)
    (reason : TerminalReason) :
    (terminate state d reason).terminalHighWatermarks =
      raiseHighWatermark d.id d.scheduledUtcSeconds state.terminalHighWatermarks :=
  appendTerminal_watermarks _ _

theorem watermarked_terminate {state : PersistentAlarmState} {d : AlarmDefinition}
    {reason : TerminalReason} {alarmId : Text} {instant : Int64}
    (h : Watermarked state alarmId instant) :
    Watermarked (terminate state d reason) alarmId instant := by
  obtain ⟨w, mem, id, bound⟩ := h
  obtain ⟨w', mem', sameId, higher⟩ := raiseHighWatermark_le mem
  exact ⟨w', by rwa [terminate_watermarks], sameId.trans id, Int64.le_trans bound higher⟩

theorem watermarked_terminate_self (state : PersistentAlarmState) (d : AlarmDefinition)
    (reason : TerminalReason) :
    Watermarked (terminate state d reason) d.id d.scheduledUtcSeconds := by
  obtain ⟨w, mem, id, bound⟩ :=
    raiseHighWatermark_self d.id d.scheduledUtcSeconds state.terminalHighWatermarks
  exact ⟨w, by rwa [terminate_watermarks], id, bound⟩

theorem appendTerminal_length_le {state : PersistentAlarmState} {occurrence : TerminalOccurrence}
    (few : state.terminal.length ≤ kRecentTerminalRetention) :
    (appendTerminal state occurrence).terminal.length ≤ kRecentTerminalRetention := by
  unfold appendTerminal
  split
  · exact few
  · simp only [List.length_drop]
    omega

theorem appendTerminal_nodup {state : PersistentAlarmState} {occurrence : TerminalOccurrence}
    (distinct : (state.terminal.map (·.occurrenceId)).Nodup) :
    ((appendTerminal state occurrence).terminal.map (·.occurrenceId)).Nodup := by
  unfold appendTerminal
  split
  · exact distinct
  · rename_i absent
    have absent : ∀ t ∈ state.terminal, t.occurrenceId ≠ occurrence.occurrenceId := by
      simpa using absent
    refine List.Nodup.sublist ((List.drop_sublist _ _).map _) ?_
    rw [List.map_append, List.nodup_append]
    refine ⟨distinct, by simp, ?_⟩
    intro id listed other last
    obtain ⟨t, mem, rfl⟩ := List.mem_map.mp listed
    obtain rfl : other = occurrence.occurrenceId := List.mem_singleton.mp last
    exact absent t mem

/-- A terminal record of an alarm that can be tracked is valid. -/
theorem ValidJournal.close {state : PersistentAlarmState} (valid : ValidJournal state)
    {alarmId occurrenceId : Text} (id : validString alarmId kMaximumAlarmIdBytes = true)
    (name : validString occurrenceId kMaximumOccurrenceIdBytes = true)
    (room : canTrackTerminal state alarmId = true) (instant : Int64) (reason : TerminalReason) :
    ValidJournal { appendTerminal (recordTerminalHighWatermark state alarmId instant)
      ⟨occurrenceId, reason⟩ with active := none } := by
  have ids := raiseHighWatermark_ids alarmId instant state.terminalHighWatermarks
  have table : (appendTerminal (recordTerminalHighWatermark state alarmId instant)
      ⟨occurrenceId, reason⟩).terminalHighWatermarks =
        raiseHighWatermark alarmId instant state.terminalHighWatermarks :=
    appendTerminal_watermarks _ _
  constructor
  · simp
  · exact appendTerminal_length_le valid.terminalCount
  · intro t mem
    rcases mem_appendTerminal mem with mem | rfl
    · exact valid.terminal t mem
    · exact name
  · exact appendTerminal_nodup valid.terminalIds
  · simp
  · rw [table, ← List.length_map (f := (·.alarmId)), ids]
    split
    · rw [List.length_map]
      exact valid.watermarkCount
    · rename_i absent
      have free := (canTrackTerminal_iff.mp room).resolve_left absent
      rw [List.length_append, List.length_map, List.length_singleton]
      exact free
  · intro w mem
    rw [table] at mem
    rcases mem_raiseHighWatermark mem with mem | ⟨same, -⟩
    · exact valid.watermarks w mem
    · rwa [same]
  · rw [table, ids]
    split
    · exact valid.watermarkIds
    · rename_i absent
      refine List.nodup_append.mpr ⟨valid.watermarkIds, by simp, ?_⟩
      intro other mem last same
      obtain rfl := List.mem_singleton.mp same
      rintro rfl
      exact absent mem

theorem ValidJournal.terminate {state : PersistentAlarmState} (valid : ValidJournal state)
    {d : AlarmDefinition} (id : validString d.id kMaximumAlarmIdBytes = true)
    (room : canTrackTerminal state d.id = true) (reason : TerminalReason) :
    ValidJournal (terminate state d reason) :=
  valid.close id (validString_makeOccurrenceId id) room _ reason

/-- The admission of an unjournaled occurrence is valid. -/
theorem ValidJournal.admit {state : PersistentAlarmState} (valid : ValidJournal state)
    {alarm : StoredAlarmDefinition} (fresh : Unjournaled state alarm)
    (id : validString alarm.id kMaximumAlarmIdBytes = true)
    (wallUtcSeconds monotonicSeconds : Int64) :
    ValidJournal { state with
      active := some (admittedOccurrence alarm wallUtcSeconds monotonicSeconds) } := by
  constructor
  · rintro a ⟨⟩
    simp [validActive, admittedOccurrence, id, validString_makeOccurrenceId,
      StoredAlarmDefinition.definition, validOptionalString, kMaximumSnoozes]
  · exact valid.terminalCount
  · exact valid.terminal
  · exact valid.terminalIds
  · rintro a ⟨⟩ mem
    have listed : isTerminal state (makeOccurrenceId alarm.definition) = true :=
      isTerminal_iff.mpr mem
    rw [fresh.1] at listed
    cases listed
  · exact valid.watermarkCount
  · exact valid.watermarks
  · exact valid.watermarkIds

/-- A terminal transition keeps the invariant. -/
theorem JournalInv.terminate {state : PersistentAlarmState} (inv : JournalInv state)
    {d : AlarmDefinition} (id : validString d.id kMaximumAlarmIdBytes = true)
    (room : canTrackTerminal state d.id = true) (reason : TerminalReason) :
    JournalInv (terminate state d reason) := by
  constructor
  · exact inv.valid.terminate id room reason
  · simp [DawnDock.terminate]
  · intro t mem
    rcases mem_appendTerminal mem with mem | rfl
    · obtain ⟨other, name, watermarked⟩ := inv.recorded t mem
      exact ⟨other, name, watermarked_terminate watermarked⟩
    · exact ⟨d, rfl, watermarked_terminate_self state d reason⟩
  · simp [DawnDock.terminate]
  · simp [DawnDock.terminate]

/-- Terminating `d` uncovers nothing when `d` accounts for the active occurrence,
and journals nothing else. -/
theorem Advances.terminate {alarms : List StoredAlarmDefinition} {state : PersistentAlarmState}
    {d : AlarmDefinition} {reason : TerminalReason}
    (closes : ∀ a ∈ state.active, a.alarmId = d.id ∧
      a.scheduledUtcSeconds = d.scheduledUtcSeconds)
    (fresh : Journaled state d ∨
      (∃ alarm ∈ alarms, makeOccurrenceId alarm.definition = makeOccurrenceId d) ∧
        ¬ Covered state d.id d.scheduledUtcSeconds) :
    Advances alarms state (terminate state d reason) where
  watermarked h := watermarked_terminate h
  covered h := by
    rcases h with watermarked | ⟨a, held, rfl, bound⟩
    · exact .inl (watermarked_terminate watermarked)
    · obtain ⟨id, instant⟩ := closes a held
      rw [id]
      exact .inl ((watermarked_terminate_self state d reason).le (instant ▸ bound))
  journaled {other} h := by
    rcases h with ⟨a, held, -⟩ | mem
    · simp [DawnDock.terminate] at held
    · obtain ⟨t, mem, same⟩ := List.mem_map.mp mem
      rcases mem_appendTerminal mem with mem | rfl
      · exact .inl (.inr (List.mem_map.mpr ⟨t, mem, same⟩))
      · have same : makeOccurrenceId d = makeOccurrenceId other := same
        obtain ⟨id, -, instant⟩ := makeOccurrenceId_inj same
        rcases fresh with journaled | ⟨alarm, uncovered⟩
        · exact .inl (by rwa [Journaled, same] at journaled)
        · exact .inr ⟨by rwa [← same], by rwa [← id, ← instant]⟩

theorem closeActive_eq {state : PersistentAlarmState} {active : ActiveOccurrence}
    {d : AlarmDefinition} (reason : TerminalReason) (id : active.alarmId = d.id)
    (instant : active.scheduledUtcSeconds = d.scheduledUtcSeconds)
    (name : active.occurrenceId = makeOccurrenceId d) :
    closeActive state active reason = terminate state d reason := by
  rw [closeActive, id, instant, name, terminate]

/-- Closing the active occurrence. -/
theorem JournalInv.close {alarms : List StoredAlarmDefinition} {state : PersistentAlarmState}
    (inv : JournalInv state) {active : ActiveOccurrence} (held : state.active = some active)
    (reason : TerminalReason) : JournalInv (closeActive state active reason) ∧
      Advances alarms state (closeActive state active reason) := by
  obtain ⟨d, id, instant, name⟩ := inv.named active held
  have valid := inv.valid.active active held
  simp only [validActive, Bool.and_eq_true] at valid
  rw [closeActive_eq reason id instant name]
  refine ⟨inv.terminate (id ▸ valid.1.1.1.1) (id ▸ inv.room active held) reason, ?_⟩
  refine .terminate (fun a heldA => ?_) (.inl (.inl ⟨active, held, name⟩))
  obtain rfl := Option.some.inj (held.symm.trans heldA)
  exact ⟨id, instant⟩

/-! ### Admitting and missing -/

/-- An unjournaled occurrence lies above its alarm's watermark. -/
theorem Unjournaled.not_watermarked {state : PersistentAlarmState} {alarm : StoredAlarmDefinition}
    (h : Unjournaled state alarm)
    (distinct : (state.terminalHighWatermarks.map (·.alarmId)).Nodup) :
    ¬ Watermarked state alarm.id alarm.scheduledUtcSeconds := by
  rintro ⟨w, mem, id, bound⟩
  have below := h.2
  simp only [atOrBelowWatermark, findHighWatermark] at below
  cases found : state.terminalHighWatermarks.find? (·.alarmId == alarm.id) with
  | none =>
      have := List.find?_eq_none.mp found w mem
      simp [id] at this
  | some first =>
      have firstId : first.alarmId = alarm.id := by simpa using List.find?_some found
      obtain rfl := List.inj_on_of_nodup_map distinct (List.mem_of_find?_eq_some found) mem
        (firstId.trans id.symm)
      rw [found, Option.any_some] at below
      exact absurd bound (of_decide_eq_false below)

theorem Eligible.uncovered {alarms : List StoredAlarmDefinition} {wallUtcSeconds : Int64}
    {state : PersistentAlarmState} {alarm : StoredAlarmDefinition}
    (eligible : Eligible alarms wallUtcSeconds state alarm) (inv : JournalInv state) :
    ¬ Covered state alarm.id alarm.scheduledUtcSeconds := by
  rintro (watermarked | ⟨a, held, -⟩)
  · exact eligible.unjournaled.not_watermarked inv.valid.watermarkIds watermarked
  · rw [eligible.idle] at held
    cases held

theorem missOccurrence_eq {state : PersistentAlarmState} {alarm : StoredAlarmDefinition}
    (idle : state.active = none) (reason : TerminalReason) :
    missOccurrence state alarm reason = terminate state alarm.definition reason := by
  have kept : (missOccurrence state alarm reason).active = none := by
    rw [missOccurrence, appendTerminal_active]
    exact idle
  rw [terminate]
  show _ = { missOccurrence state alarm reason with active := none }
  rw [← kept]

theorem JournalInv.miss {alarms : List StoredAlarmDefinition} {wallUtcSeconds : Int64}
    {state : PersistentAlarmState} (inv : JournalInv state) {alarm : StoredAlarmDefinition}
    (eligible : Eligible alarms wallUtcSeconds state alarm)
    (id : validString alarm.id kMaximumAlarmIdBytes = true) (reason : TerminalReason) :
    JournalInv (missOccurrence state alarm reason) ∧
      Advances alarms state (missOccurrence state alarm reason) := by
  rw [missOccurrence_eq eligible.idle]
  refine ⟨inv.terminate (d := alarm.definition) id eligible.room reason, .terminate ?_ ?_⟩
  · simp [eligible.idle]
  · exact .inr ⟨⟨alarm, eligible.mem, rfl⟩, eligible.uncovered inv⟩

theorem JournalInv.admit {alarms : List StoredAlarmDefinition} {wallUtcSeconds : Int64}
    {state : PersistentAlarmState} (inv : JournalInv state) {alarm : StoredAlarmDefinition}
    (eligible : Eligible alarms wallUtcSeconds state alarm)
    (id : validString alarm.id kMaximumAlarmIdBytes = true) (monotonicSeconds : Int64) :
    let admitted := { state with
      active := some (admittedOccurrence alarm wallUtcSeconds monotonicSeconds) }
    JournalInv admitted ∧ Advances alarms state admitted := by
  have uncovered := eligible.uncovered inv
  constructor
  · constructor
    · exact inv.valid.admit eligible.unjournaled id wallUtcSeconds monotonicSeconds
    · rintro a ⟨⟩
      exact ⟨alarm.definition, rfl, rfl, rfl⟩
    · exact inv.recorded
    · rintro a ⟨⟩ watermarked
      exact uncovered (.inl watermarked)
    · rintro a ⟨⟩
      exact eligible.room
  · refine ⟨fun watermarked => watermarked, ?_, ?_⟩
    · rintro other instant (watermarked | ⟨a, held, -⟩)
      · exact .inl watermarked
      · rw [eligible.idle] at held
        cases held
    · rintro d (⟨a, ⟨⟩, same⟩ | mem)
      · have same : makeOccurrenceId alarm.definition = makeOccurrenceId d := same
        obtain ⟨sameId, -, sameInstant⟩ := makeOccurrenceId_inj same
        refine .inr ⟨⟨alarm, eligible.mem, same⟩, ?_⟩
        rw [← sameId, ← sameInstant]
        exact uncovered
      · exact .inl (.inr mem)

/-! ### Updating the active occurrence -/

/-- An update that keeps the occurrence and stays valid changes neither the
invariant nor the ledger. -/
theorem JournalInv.update {alarms : List StoredAlarmDefinition} {state : PersistentAlarmState}
    (inv : JournalInv state) {active updated : ActiveOccurrence}
    (held : state.active = some active) (id : updated.alarmId = active.alarmId)
    (name : updated.occurrenceId = active.occurrenceId)
    (instant : updated.scheduledUtcSeconds = active.scheduledUtcSeconds)
    (valid : validActive updated = true) :
    JournalInv { state with active := some updated } ∧
      Advances alarms state { state with active := some updated } := by
  constructor
  · constructor
    · refine ⟨?_, inv.valid.terminalCount, inv.valid.terminal, inv.valid.terminalIds, ?_,
        inv.valid.watermarkCount, inv.valid.watermarks, inv.valid.watermarkIds⟩
      · rintro a ⟨⟩
        exact valid
      · rintro a ⟨⟩
        rw [name]
        exact inv.valid.activeNotTerminal active held
    · rintro a ⟨⟩
      rw [id, name, instant]
      exact inv.named active held
    · exact inv.recorded
    · rintro a ⟨⟩
      rw [id, instant]
      exact inv.above active held
    · rintro a ⟨⟩
      rw [id]
      exact inv.room active held
  · refine ⟨fun watermarked => watermarked, ?_, ?_⟩
    · rintro other t (watermarked | ⟨a, heldA, sameId, bound⟩)
      · exact .inl watermarked
      · obtain rfl := Option.some.inj (held.symm.trans heldA)
        exact .inr ⟨updated, rfl, id.trans sameId, instant ▸ bound⟩
    · rintro d (⟨a, ⟨⟩, same⟩ | mem)
      · exact .inl (.inl ⟨active, held, name ▸ same⟩)
      · exact .inl (.inr mem)

/-! ### Every step -/

/-- The alarm ids of a schedule the store accepts. -/
def ValidIds (alarms : List StoredAlarmDefinition) : Prop :=
  ∀ alarm ∈ alarms, validString alarm.id kMaximumAlarmIdBytes = true

/-- A step of a tick keeps the invariant and advances the ledger. A boot id outside
the store's bounds does no harm where the validator accepted the result. -/
theorem TickStep.sound {alarms : List StoredAlarmDefinition}
    {observation : RuntimeTickObservation} {before after : PersistentAlarmState}
    {edges : List AlertEdge} (step : TickStep alarms observation before edges after)
    (ids : ValidIds alarms)
    (boot : validOptionalString observation.bootId kMaximumBootIdBytes = true ∨
      ValidJournal after)
    (inv : JournalInv before) : JournalInv after ∧ Advances alarms before after := by
  cases step with
  | admitted eligible elapsed grace => exact inv.admit eligible (ids _ eligible.mem) _
  | missed reason eligible => exact inv.miss eligible (ids _ eligible.mem) reason
  | timedOut held past => exact inv.close held _
  | @rerung active deadline held lives snoozed passed =>
      have valid := inv.valid.active active held
      refine inv.update held rfl rfl rfl ?_
      simp only [validActive, Bool.and_eq_true] at valid ⊢
      exact ⟨valid.1, rfl⟩
  | @recovered active elapsed anchor held nonempty fresh lives anchored =>
      have valid := inv.valid.active active held
      refine inv.update held rfl rfl rfl ?_
      have boot : validOptionalString observation.bootId kMaximumBootIdBytes = true := by
        rcases boot with bounded | accepted
        · exact bounded
        · have stamped := accepted.active _ rfl
          simp only [validActive, Bool.and_eq_true] at stamped
          exact stamped.1.1.2
      simp only [validActive, Bool.and_eq_true] at valid ⊢
      exact ⟨⟨⟨valid.1.1.1, boot⟩, valid.1.2⟩, rfl⟩
  | expired held nonempty fresh => exact inv.close held _

theorem TickSteps.sound {alarms : List StoredAlarmDefinition}
    {observation : RuntimeTickObservation} {before after : PersistentAlarmState}
    {edges : List AlertEdge} (steps : TickSteps alarms observation before edges after)
    (ids : ValidIds alarms)
    (boot : validOptionalString observation.bootId kMaximumBootIdBytes = true)
    (inv : JournalInv before) : JournalInv after ∧ Advances alarms before after := by
  induction steps with
  | nil => exact ⟨inv, .refl _ _⟩
  | cons step rest ih =>
      obtain ⟨middle, first⟩ := step.sound ids (.inl boot) inv
      obtain ⟨final, second⟩ := ih middle
      exact ⟨final, first.trans second⟩

theorem ControlStep.sound {alarms : List StoredAlarmDefinition}
    {before after : PersistentAlarmState} {edges : List AlertEdge}
    (step : ControlStep before edges after) (inv : JournalInv before) :
    JournalInv after ∧ Advances alarms before after := by
  cases step with
  | @snoozed active deadline held ringing count later =>
      have valid := inv.valid.active active held
      refine inv.update held rfl rfl rfl ?_
      simp only [validActive, Bool.and_eq_true, decide_eq_true_eq] at valid ⊢
      refine ⟨⟨valid.1.1, ?_⟩, ?_⟩
      · simp only [kMaximumSnoozes] at count ⊢
        grind
      · simpa using later
  | dismissed reason held => exact inv.close held _

end DawnDock
