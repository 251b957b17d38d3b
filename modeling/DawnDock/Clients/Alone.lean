import DawnDock.Clients.Device

/-!
A client alone with the store.

While nobody else writes, the durable record is known before every call: a load
returns it or fails (`ensures_load`), a journal commit planned on it replaces its
journal or leaves it (`ensures_saveOccurrenceState`). `Answers` is what the calls
are answered under faults of some kind, and `exec_ensures` carries what is proved
from it to the store.
-/

namespace DawnDock

open AtomicProgram

/-- What a call of a sole client is answered, under faults of the given kind. -/
structure Answers (allowed : StorageFaults → Prop) (current : Register) (c : StoreCall)
    (done : StoreReply c × Register) : Prop where
  answered : ∃ faults, allowed faults ∧ performRegister faults current c = done
  valid : current.status = .loaded → validateSnapshot current.snapshot = true

section

variable {allowed : StorageFaults → Prop} {log : StoreLog} {current : Register}

/-- A load returns the record or fails, and leaves the record. -/
theorem Answers.load {loaded : StoreReply StoreCall.load} {after : Register}
    (h : Answers allowed current .load (loaded, after)) :
    after = current ∧ (loaded.status = .loaded → loaded = current) := by
  obtain ⟨faults, -, answer⟩ := h.answered
  obtain ⟨replied, kept⟩ := Prod.mk.inj answer
  refine ⟨kept.symm, fun isLoaded => ?_⟩
  split at replied
  · rw [← replied] at isLoaded
    cases isLoaded
  · exact replied.symm

theorem Answers.commitOutcome {journal : PersistentAlarmState} {revision generation : UInt64}
    {reply : StoreReply (.saveOccurrenceState journal revision generation)} {after : Register}
    (h : Answers allowed current (.saveOccurrenceState journal revision generation)
      (reply, after)) : CommitOutcome current journal revision generation reply after := by
  obtain ⟨faults, -, answered⟩ := h.answered
  have outcome := performRegister_outcome faults current journal revision generation
  rwa [answered] at outcome

/-- A journal commit replaces the journal or keeps it. -/
theorem CommitOutcome.journal_cases {journal : PersistentAlarmState}
    {revision generation : UInt64} {committed : StoreResult} {after : Register}
    (outcome : CommitOutcome current journal revision generation committed after) :
    after.journal = current.journal ∨ after.journal = journal := by
  cases outcome with
  | refused _ kept => exact .inl kept.journal
  | unconfirmed | stored => exact .inr rfl
  | unchanged => exact .inl rfl

/-- A confirmed commit leaves its journal in the record. -/
theorem CommitOutcome.confirmed {journal : PersistentAlarmState} {revision generation : UInt64}
    {committed : StoreResult} {after : Register}
    (outcome : CommitOutcome current journal revision generation committed after)
    (confirmed : committed.status.committed = true) : after.status = .loaded ∧
      after.journal = journal ∧ after.snapshot.alarms = current.snapshot.alarms := by
  cases outcome with
  | refused failed | unconfirmed failed =>
      rw [failed] at confirmed
      cases confirmed
  | stored => exact ⟨rfl, rfl, rfl⟩
  | unchanged _ _ isLoaded _ held =>
      exact ⟨isLoaded, (Register.journal_of_loaded isLoaded).trans held, rfl⟩

theorem ensures_load (allowed : StorageFaults → Prop) (log : StoreLog) (current : Register) :
    Ensures (Answers allowed) (fun loaded log' after => after = current ∧
      log' = log ++ [⟨current, .load, loaded, current⟩] ∧
      (loaded.status = .loaded → loaded = current ∧ validateSnapshot current.snapshot = true))
      AtomicScheduleStore.load log current := by
  intro loaded after answer
  obtain ⟨rfl, returns⟩ := answer.load
  refine ⟨rfl, rfl, fun isLoaded => ?_⟩
  obtain rfl := returns isLoaded
  exact ⟨rfl, answer.valid isLoaded⟩

theorem ensures_saveOccurrenceState {journal : PersistentAlarmState} {revision generation : UInt64} :
    Ensures (Answers allowed) (fun committed log' after =>
      log' = log ++ [⟨current, .saveOccurrenceState journal revision generation, committed, after⟩] ∧
      CommitOutcome current journal revision generation committed after)
      (AtomicScheduleStore.saveOccurrenceState journal revision generation) log current := by
  intro committed after answer
  exact ⟨rfl, answer.commitOutcome⟩

end

/-- What a client alone ensures, it ensures on the store. -/
theorem exec_ensures {α : Type} {post : α → StoreLog → Register → Prop}
    {p : Program StoreReply α} (faults : ℕ → StorageFaults) (s : ℕ × Slots)
    {allowed : StorageFaults → Prop} (kind : ∀ n, allowed (faults n))
    (h : Ensures (Answers allowed) post p [] (durable s)) :
    post (exec (faultyStore faults) p s).1
      ((events (faultyStore faults) p s).map (Event.mapState durable))
      (durable (exec (faultyStore faults) p s).2) := by
  refine h.exec durable fun s c => ?_
  exact ⟨⟨faults s.1, kind s.1, performStore_simulates (faults s.1) s.2 c⟩,
    (faultyStore_serves faults).valid s⟩

/-- A solitary run of the store is one of the register. -/
theorem exec_register {α : Type} (faults : ℕ → StorageFaults) (p : Program StoreReply α)
    (slots : Slots) :
    let run := exec (faultyStore faults) p (0, slots)
    let register := exec (withStream fun n => performRegister (faults n)) p (0, scanSlots slots)
    run.1 = register.1 ∧ scanSlots run.2.2 = register.2.2 := by
  intro run register
  have sim := (Simulates.withStream fun n => performStore_simulates (faults n)).exec p (0, slots)
  exact ⟨(congrArg Prod.fst sim).symm, (congrArg (fun final => final.2.2) sim).symm⟩

end DawnDock
