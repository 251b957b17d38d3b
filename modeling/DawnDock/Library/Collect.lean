import Mathlib.Data.List.Perm.Basic

/-!
Loops over a list whose body fails or gives a result, and that go on behind a failure.

Either every element has its result (`all_or_error`), and the loop is the fold of the
results (`foldl_of_all`); or one fails, and what the failures establish and the results
keep holds at the end (`foldl_of_error`).
-/

namespace Collect

/-- A chain that succeeds succeeded first. -/
theorem of_bind_eq_ok {ε α β : Type} {first : Except ε α} {next : α → Except ε β} {result : β}
    (h : first >>= next = .ok result) : ∃ value, first = .ok value ∧ next value = .ok result := by
  cases first with
  | error issue => cases h
  | ok value => exact ⟨value, rfl, h⟩

/-- A first step that succeeds leaves the rest. -/
theorem bind_eq {ε α β : Type} {first : Except ε α} {next : α → Except ε β} {a : α}
    {result : Except ε β} (h : first = .ok a) (rest : next a = result) :
    first >>= next = result := by
  subst h
  exact rest

theorem ok_bind {ε α β : Type} (a : α) (next : α → Except ε β) :
    Except.ok a >>= next = next a :=
  rfl

/-- Each element of a paired list has its partner. -/
theorem exists_of_mem_left {α β : Type} {R : α → β → Prop} {left : List α} {right : List β}
    (paired : List.Forall₂ R left right) {a : α} (mem : a ∈ left) : ∃ b ∈ right, R a b := by
  induction paired with
  | nil => cases mem
  | @cons _ b _ _ first _ ih =>
      rcases List.mem_cons.mp mem with rfl | later
      · exact ⟨b, List.mem_cons_self, first⟩
      · obtain ⟨other, listed, related⟩ := ih later
        exact ⟨other, List.mem_cons_of_mem _ listed, related⟩

theorem exists_of_mem_right {α β : Type} {R : α → β → Prop} {left : List α} {right : List β}
    (paired : List.Forall₂ R left right) {b : β} (mem : b ∈ right) : ∃ a ∈ left, R a b :=
  exists_of_mem_left paired.flip mem

variable {σ α β ε : Type} {f : α → Except ε β} {ok : σ → β → σ} {error : σ → ε → σ}

/-- The body of the loop. -/
def step (f : α → Except ε β) (ok : σ → β → σ) (error : σ → ε → σ) (s : σ) (a : α) : σ :=
  match f a with
  | .error e => error s e
  | .ok b => ok s b

/-- Every element has its result. -/
def All (f : α → Except ε β) (values : List α) (results : List β) : Prop :=
  List.Forall₂ (fun a b => f a = .ok b) values results

/-- Either every value is read, or some value fails. -/
theorem all_or_error (f : α → Except ε β) (values : List α) :
    (∃ results, All f values results) ∨ ∃ a ∈ values, ∃ e, f a = .error e := by
  induction values with
  | nil => exact .inl ⟨[], .nil⟩
  | cons a rest ih =>
      cases first : f a with
      | error e => exact .inr ⟨a, List.mem_cons_self, e, first⟩
      | ok b =>
          rcases ih with ⟨results, all⟩ | ⟨other, mem, failed⟩
          · exact .inl ⟨b :: results, .cons first all⟩
          · exact .inr ⟨other, List.mem_cons_of_mem _ mem, failed⟩

/-- Reading back values that were written, one after the other. -/
theorem mapM_map_ok {γ : Type} {write : γ → α} {read : α → Except ε β} {result : γ → β}
    {values : List γ} (each : ∀ c ∈ values, read (write c) = .ok (result c)) :
    (values.map write).mapM read = .ok (values.map result) := by
  induction values with
  | nil => rfl
  | cons c rest ih =>
      rw [List.map_cons, List.mapM_cons]
      refine bind_eq (each c List.mem_cons_self) ?_
      exact bind_eq (ih fun other mem => each other (List.mem_cons_of_mem _ mem)) rfl

theorem All.not_error {values : List α} {results : List β} (all : All f values results) {a : α}
    (mem : a ∈ values) {e : ε} : f a ≠ .error e := by
  intro failed
  induction all with
  | nil => cases mem
  | cons first _ ih =>
      rcases List.mem_cons.mp mem with rfl | later
      · rw [failed] at first
        cases first
      · exact ih later

/-- The results are determined. -/
theorem All.unique {values : List α} {results others : List β} (all : All f values results)
    (again : All f values others) : results = others := by
  induction all generalizing others with
  | nil =>
      cases again
      rfl
  | cons first _ ih =>
      cases again with
      | cons same rest =>
          rw [first] at same
          cases same
          rw [ih rest]

/-- Values in another order have their results in another order. -/
theorem All.perm {values others : List α} {results : List β} (all : All f values results)
    (perm : values.Perm others) : ∃ reordered, All f others reordered ∧ reordered.Perm results :=
  List.perm_comp_forall₂ perm.symm all

/-- `mapM` gives the results, if there are some. -/
theorem all_of_mapM {values : List α} {results : List β} (mapped : values.mapM f = .ok results) :
    All f values results := by
  induction values generalizing results with
  | nil =>
      cases mapped
      exact .nil
  | cons a rest ih =>
      rw [List.mapM_cons] at mapped
      obtain ⟨first, called, after⟩ := of_bind_eq_ok mapped
      obtain ⟨others, later, same⟩ := of_bind_eq_ok after
      cases same
      exact .cons called (ih later)

/-- Where nothing fails, the loop is the fold over the results. -/
theorem foldl_of_all {values : List α} {results : List β} (all : All f values results) (s : σ) :
    values.foldl (step f ok error) s = results.foldl ok s := by
  induction all generalizing s with
  | nil => rfl
  | @cons a b _ _ first _ ih =>
      have here : step f ok error s a = ok s b := by
        rw [step, first]
      rw [List.foldl_cons, List.foldl_cons, here, ih]

section

variable (f ok error) {P : σ → Prop} (fails : ∀ s a e, f a = .error e → P (error s e))
  (keeps : ∀ s b, P s → P (ok s b))

include fails keeps

/-- By induction on the values: what both cases keep, the loop keeps. -/
theorem foldl_keeps {values : List α} {s : σ} (holds : P s) :
    P (values.foldl (step f ok error) s) := by
  induction values generalizing s with
  | nil => exact holds
  | cons a rest ih =>
      apply ih
      unfold step
      split
      · rename_i e failed
        exact fails s a e failed
      · exact keeps s _ holds

/-- One failure anywhere is enough for what a failure leaves. -/
theorem foldl_of_error {values : List α} {a : α} {e : ε} (mem : a ∈ values)
    (failed : f a = .error e) (s : σ) : P (values.foldl (step f ok error) s) := by
  induction values generalizing s with
  | nil => cases mem
  | cons first rest ih =>
      rw [List.foldl_cons]
      rcases List.mem_cons.mp mem with rfl | later
      · apply foldl_keeps f ok error fails keeps
        rw [step, failed]
        exact fails s a e failed
      · exact ih later _

end

end Collect
