import DawnDock.Clients.Commit
import DawnDock.ScheduleStore.Evolution

/-!
What a client may rely on, and what its calls expose.

A client is judged by the log of its own calls, each seen through what a load
would return (`Register`). `StoreRely` is what every call is answered while any
number of other clients use the store. `Exposes` annotates a log with the alert
edges each call lets out: a journal commit carries the edges of the journal
planned on the record the call before it left, and exposes them by its answer.

`Exposure.effect` is what the annotation means for the durable record, the one
place where the answers of the store are interpreted.
-/

namespace DawnDock

open AtomicProgram

abbrev StoreEvent := Event StoreReply Register
abbrev StoreLog := Log StoreReply Register

/-- The journal a load would show; empty where no record can be loaded. -/
def Register.journal (current : Register) : PersistentAlarmState :=
  if current.status = .loaded then current.snapshot.occurrenceState else {}

/-- The durable journal of a store. -/
def Slots.journal (slots : Slots) : PersistentAlarmState := Register.journal (scanSlots slots)

theorem Register.journal_of_loaded {current : Register} (loaded : current.status = .loaded) :
    current.journal = current.snapshot.occurrenceState := if_pos loaded

/-! ### The rely -/

/-- What every call of a client is answered, whatever the other clients do. -/
structure StoreRely (log : StoreLog) (e : StoreEvent) : Prop where
  answered : ∃ faults, performRegister faults e.before e.call = (e.reply, e.after)
  evolved : ∀ seen ∈ log, Evolves seen.after e.before
  valid : e.before.status = .loaded → validateSnapshot e.before.snapshot = true

/-- How a journal commit of a client ends. -/
theorem StoreRely.commitOutcome {log : StoreLog} {before after : Register}
    {journal : PersistentAlarmState} {revision generation : UInt64}
    {reply : StoreReply (.saveOccurrenceState journal revision generation)}
    (rely : StoreRely log ⟨before, .saveOccurrenceState journal revision generation, reply, after⟩) :
    CommitOutcome before journal revision generation reply after := by
  obtain ⟨faults, answered⟩ := rely.answered
  have outcome := performRegister_outcome faults before journal revision generation
  rwa [answered] at outcome

/-- An object that answers as the store does, under some faults at every call;
`view` is what a load of its state returns. -/
structure ServesStore {τ : Type} (obj : Object StoreReply τ) (view : τ → Register) : Prop where
  answers : ∀ s c, ∃ faults, performRegister faults (view s) c = ((obj s c).1, view (obj s c).2)
  valid : ∀ s, (view s).status = .loaded → validateSnapshot (view s).snapshot = true

/-- The store whose `n`-th operation meets the `n`-th faults. -/
def faultyStore (faults : ℕ → StorageFaults) : Object StoreReply (ℕ × Slots) :=
  withStream fun n => performStore (faults n)

def durable (s : ℕ × Slots) : Register := scanSlots s.2

theorem performStore_serves (faults : StorageFaults) :
    ServesStore (performStore faults) scanSlots where
  answers s c := ⟨faults, performStore_simulates faults s c⟩
  valid _ loaded := (validateSnapshot_scanSlots loaded).1

theorem faultyStore_serves (faults : ℕ → StorageFaults) :
    ServesStore (faultyStore faults) durable where
  answers s c := ⟨faults s.1, performStore_simulates (faults s.1) s.2 c⟩
  valid _ loaded := (validateSnapshot_scanSlots loaded).1

section

variable {τ : Type} {obj : Object StoreReply τ} {view : τ → Register}

theorem ServesStore.evolves (serves : ServesStore obj view) (s : τ) (c : StoreCall) :
    Evolves (view s) (view (obj s c).2) := by
  obtain ⟨faults, answer⟩ := serves.answers s c
  have evolves := performRegister_evolves faults (view s) c
  rwa [answer] at evolves

theorem along_of_pairwise {own log : StoreLog}
    (answered : ∀ e ∈ own, ∃ faults, performRegister faults e.before e.call = (e.reply, e.after))
    (valid : ∀ e ∈ own, e.before.status = .loaded → validateSnapshot e.before.snapshot = true)
    (earlier : ∀ seen ∈ log, ∀ e ∈ own, Evolves seen.after e.before)
    (pairwise : own.Pairwise fun e f => Evolves e.after f.before) : Along StoreRely log own := by
  induction own generalizing log with
  | nil => trivial
  | cons e rest ih =>
      obtain ⟨later, pairwise⟩ := List.pairwise_cons.mp pairwise
      refine ⟨⟨answered e List.mem_cons_self, fun seen h => earlier seen h e List.mem_cons_self,
        valid e List.mem_cons_self⟩, ih (fun f hf => answered f (List.mem_cons_of_mem _ hf))
        (fun f hf => valid f (List.mem_cons_of_mem _ hf)) ?_ pairwise⟩
      intro seen h f hf
      rcases List.mem_append.mp h with h | h
      · exact earlier seen h f (List.mem_cons_of_mem _ hf)
      · obtain rfl := List.mem_singleton.mp h
        exact later f hf

/-- The calls of one client among linked calls of the store are answered as the
rely says. -/
theorem ServesStore.along (serves : ServesStore obj view) {s t : τ}
    {all own : List (Event StoreReply τ)} (linked : Linked s all t)
    (steps : ∀ e ∈ all, e = eventAt obj e.before e.call) (sub : own.Sublist all) :
    Along StoreRely [] (own.map (Event.mapState view)) := by
  have evolves : ∀ e ∈ all, Evolves (view e.before) (view e.after) := by
    intro e he
    have step := serves.evolves e.before e.call
    rwa [show (obj e.before e.call).2 = e.after from (congrArg Event.after (steps e he)).symm]
      at step
  obtain ⟨-, -, pairwise⟩ := linked.related (R := fun s t => Evolves (view s) (view t))
    (fun s => .refl _) .trans evolves
  apply along_of_pairwise
  · intro _ mem
    obtain ⟨e, he, rfl⟩ := List.mem_map.mp mem
    rw [steps e (sub.subset he)]
    exact serves.answers e.before e.call
  · intro _ mem
    obtain ⟨e, -, rfl⟩ := List.mem_map.mp mem
    exact serves.valid e.before
  · simp
  · rw [List.pairwise_map]
    exact pairwise.sublist sub

theorem ServesStore.along_exec (serves : ServesStore obj view) {α : Type}
    (p : Program StoreReply α) (s : τ) :
    Along StoreRely [] ((events obj p s).map (Event.mapState view)) :=
  serves.along (events_linked obj p s) (event_step obj p s) (List.Sublist.refl _)

theorem ServesStore.along_runPool (serves : ServesStore obj view) {ι : Type} [DecidableEq ι]
    {α : ι → Type} (schedule : List ι) (s : τ) (pool : Pool StoreReply α) (i : ι) :
    Along StoreRely []
      ((ownLog i (runPool obj schedule s pool).1).map (Event.mapState view)) := by
  refine serves.along (runPool_linked obj schedule s pool) ?_ (List.filter_sublist.map Prod.snd)
  intro _ mem
  obtain ⟨e, he, rfl⟩ := List.mem_map.mp mem
  exact runPool_step obj schedule s pool e he

/-- The same for the calls of a client that is run to its end once the pool stops. -/
theorem ServesStore.along_completed (serves : ServesStore obj view) {ι : Type} [DecidableEq ι]
    {α : ι → Type} (schedule : List ι) (s : τ) (pool : Pool StoreReply α) (i : ι) :
    let run := runPool obj schedule s pool
    Along StoreRely []
      ((ownLog i run.1 ++ events obj (run.2.2 i) run.2.1).map (Event.mapState view)) := by
  intro run
  have linked : Linked s (run.1.map Prod.snd ++ events obj (run.2.2 i) run.2.1)
      (exec obj (run.2.2 i) run.2.1).2 :=
    linked_append.mpr ⟨_, runPool_linked obj schedule s pool, events_linked obj _ _⟩
  refine serves.along linked ?_ ((List.filter_sublist.map Prod.snd).append_right _)
  intro e mem
  rcases List.mem_append.mp mem with mem | mem
  · obtain ⟨event, he, rfl⟩ := List.mem_map.mp mem
    exact runPool_step obj schedule s pool event he
  · exact event_step obj _ _ e mem

end

/-! ### Exposure -/

/-- The edges a commit lets out, by its answer. -/
def exposedEdges (stage : CommitStage) (edges : List AlertEdge) : StoreStatus → List AlertEdge
  | .stored => edges
  | .unchanged => if stage.forwards then edges else []
  | _ => []

theorem exposedEdges_of_failed {stage : CommitStage} {edges : List AlertEdge} {status : StoreStatus}
    (failed : status.committed = false) : exposedEdges stage edges status = [] := by
  cases status <;> first | rfl | cases failed

/-- The edges one call of a client exposes, given the client's calls before it and
the stages it commits in. -/
inductive Exposure (observation : RuntimeTickObservation) (stages : CommitStage → Prop)
    (log : StoreLog) (e : StoreEvent) : List AlertEdge → Prop where
  /-- A call that commits no journal. -/
  | silent
      (quiet : ∀ journal revision generation,
        e.call ≠ .saveOccurrenceState journal revision generation)
      (schedule : ∀ snapshot revision, e.call = .save snapshot revision →
        snapshot.occurrenceState = {} ∨ ∃ seen ∈ log, seen.after.status = .loaded) :
      Exposure observation stages log e []
  /-- A journal planned on the record the previous call left. -/
  | commit {seen : StoreEvent} {stage : CommitStage} {edges : List AlertEdge}
      {journal : PersistentAlarmState} {status : StoreStatus} (last : log.getLast? = some seen)
      (loaded : seen.after.status = .loaded) (allowed : stages stage)
      (planned : Plans seen.after.snapshot observation stage edges journal)
      (call : e.call =
        .saveOccurrenceState journal seen.after.snapshot.revision seen.after.generation)
      (answer : storeStatus e.call e.reply = some status) :
      Exposure observation stages log e (exposedEdges stage edges status)

/-- The edges a client's own calls expose, in order. -/
inductive Exposes (observation : RuntimeTickObservation) (stages : CommitStage → Prop) :
    StoreLog → StoreLog → List AlertEdge → Prop where
  | nil {log : StoreLog} : Exposes observation stages log [] []
  | cons {log own : StoreLog} {e : StoreEvent} {edges more : List AlertEdge}
      (first : Exposure observation stages log e edges)
      (rest : Exposes observation stages (log ++ [e]) own more) :
      Exposes observation stages log (e :: own) (edges ++ more)

section

variable {observation : RuntimeTickObservation} {stages : CommitStage → Prop}
  {log own later : StoreLog} {e : StoreEvent} {edges more : List AlertEdge}

theorem Exposes.append (first : Exposes observation stages log own edges)
    (second : Exposes observation stages (log ++ own) later more) :
    Exposes observation stages log (own ++ later) (edges ++ more) := by
  induction first with
  | nil =>
      rw [List.append_nil] at second
      exact second
  | cons exposure rest ih =>
      rw [List.append_assoc]
      refine .cons exposure (ih ?_)
      rwa [List.append_assoc, List.singleton_append]

theorem Exposure.single (h : Exposure observation stages log e edges) :
    Exposes observation stages log [e] edges := by
  have whole := Exposes.cons h .nil
  rwa [List.append_nil] at whole

/-- What a call of a client did to the durable record, with the edges it exposes. -/
inductive CallEffect (observation : RuntimeTickObservation) (stages : CommitStage → Prop)
    (log : StoreLog) (e : StoreEvent) : List AlertEdge → Prop where
  | kept (same : e.after.journal = e.before.journal) : CallEffect observation stages log e []
  | stored {stage : CommitStage} {edges : List AlertEdge} {journal : PersistentAlarmState}
      (allowed : stages stage)
      (planned : Plans e.before.snapshot observation stage edges journal)
      (fits : Fits e.before journal e.before.snapshot.revision e.before.generation)
      (after : e.after = e.before.withJournal journal)
      (answer : storeStatus e.call e.reply = some .stored) :
      CallEffect observation stages log e edges
  /-- Durable, although the caller is told that it failed. -/
  | unconfirmed {stage : CommitStage} {edges : List AlertEdge} {journal : PersistentAlarmState}
      {status : StoreStatus} (allowed : stages stage)
      (planned : Plans e.before.snapshot observation stage edges journal)
      (fits : Fits e.before journal e.before.snapshot.revision e.before.generation)
      (after : e.after = e.before.withJournal journal)
      (answer : storeStatus e.call e.reply = some status) (failed : status.committed = false) :
      CallEffect observation stages log e []
  /-- Another commit had made the planned journal durable. -/
  | repeated {seen : StoreEvent} {stage : CommitStage} {edges : List AlertEdge}
      (last : log.getLast? = some seen) (loaded : seen.after.status = .loaded)
      (allowed : stages stage)
      (planned : Plans seen.after.snapshot observation stage edges
        e.before.snapshot.occurrenceState)
      (later : seen.after.generation + 1 = e.before.generation) (same : e.after = e.before) :
      CallEffect observation stages log e (if stage.forwards then edges else [])

theorem Register.SameRecord.journal {before after : Register} (h : before.SameRecord after) :
    after.journal = before.journal := by
  rcases h with rfl | rfl
  · rfl
  · simp only [Register.journal, Register.damaged]
    split
    · rfl
    · rfl

/-- A register operation other than a journal commit keeps the journal, unless it
fills an empty store. -/
theorem performRegister_journal {faults : StorageFaults} {current : Register} {c : StoreCall}
    (quiet : ∀ journal revision generation,
      c ≠ .saveOccurrenceState journal revision generation)
    (schedule : ∀ snapshot revision, c = .save snapshot revision →
      snapshot.occurrenceState = {} ∨ current.status = .loaded) :
    (performRegister faults current c).2.journal = current.journal := by
  have writes {plan : WritePlan}
      (kept : ∀ snapshot destination, plan = .commit snapshot destination →
        (current.next snapshot destination).journal = current.journal) :
      (writeRegister faults current plan).2.journal = current.journal := by
    unfold writeRegister
    split
    · rfl
    cases plan with
    | answer result => rfl
    | commit snapshot destination =>
        rcases current.write_cases snapshot destination faults.write with same | ⟨-, next⟩
        · exact same.journal
        · have commit := kept snapshot destination rfl
          rwa [← next] at commit
  cases c with
  | load => rfl
  | migrateToCurrentSchema =>
      refine writes fun snapshot destination planned => ?_
      obtain ⟨loaded, rfl, -⟩ := migratePlan_commit planned
      exact (Register.journal_of_loaded loaded).symm
  | save snapshot expectedRevision =>
      refine writes fun committed destination planned => ?_
      obtain ⟨-, rfl, -⟩ := savePlan_commit planned
      show (committedSnapshot current snapshot).occurrenceState = _
      unfold committedSnapshot Register.journal
      split
      · rfl
      · rename_i unloaded
        exact (schedule _ _ rfl).resolve_right unloaded
  | saveOccurrenceState journal revision generation => exact absurd rfl (quiet _ _ _)

/-- The meaning of an exposure under the rely. -/
theorem Exposure.effect (h : Exposure observation stages log e edges) (rely : StoreRely log e) :
    CallEffect observation stages log e edges := by
  cases h with
  | silent quiet schedule =>
      obtain ⟨faults, answered⟩ := rely.answered
      refine .kept ?_
      have kept := @performRegister_journal faults e.before e.call quiet
        fun snapshot revision same => by
          rcases schedule snapshot revision same with empty | ⟨seen, mem, loaded⟩
          · exact .inl empty
          · exact .inr (rely.evolved seen mem loaded).loaded
      rwa [answered] at kept
  | @commit seen stage edges journal status last loaded allowed planned call answer =>
      have succeeds := rely.evolved seen (List.mem_of_getLast? last) loaded
      obtain ⟨before, c, reply, after⟩ := e
      cases call
      have status : reply.status = status := Option.some.inj answer
      -- A commit that reached the slots was planned on the record it replaced.
      have planned' (fits : Fits before journal seen.after.snapshot.revision
          seen.after.generation) : Plans before.snapshot observation stage edges journal ∧
          Fits before journal before.snapshot.revision before.generation := by
        have same := succeeds.record fits.generation.symm
        exact ⟨by rwa [same], fits.loaded, rfl, rfl, fits.valid, fits.fresh⟩
      cases rely.commitOutcome with
      | refused failed kept invalid =>
          rw [exposedEdges_of_failed (status ▸ failed)]
          exact .kept kept.journal
      | unconfirmed failed fault fits =>
          rw [exposedEdges_of_failed (status ▸ failed)]
          obtain ⟨planned, fits⟩ := planned' fits
          exact .unconfirmed allowed planned fits rfl answer (status ▸ failed)
      | stored stored reported fits =>
          obtain ⟨planned, fits⟩ := planned' fits
          rw [← status, stored]
          exact .stored allowed planned fits rfl (congrArg some stored)
      | unchanged unchanged reported isLoaded revision held near =>
          rw [← status, unchanged]
          have planned : Plans seen.after.snapshot observation stage edges
              before.snapshot.occurrenceState := by rwa [held]
          rcases near with same | ⟨-, later⟩
          · -- The record the journal was planned on would already hold it.
            have record := succeeds.record same
            rw [← record] at planned
            have valid := validateSnapshot_iff.mp (rely.valid succeeds.loaded)
            exact absurd rfl (planned.changed valid.1.ids)
          · exact .repeated last loaded allowed planned later rfl

end

end DawnDock
