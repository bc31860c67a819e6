import AegisForge.Concurrency.Program

/-!
# Crashes

A caller that stops for good after some of its statements.  Statements that
only read leave the store as it was, so what a crash leaves is settled by the
number of commits before it.
-/

namespace AegisForge.Concurrency.Program

universe u

variable {Statement Store Error A B : Type u} {Reply : Statement → Type u}
variable (execution : Execution Reply Store) (commits : Statement → Bool)

/-- The store after the first `count` commits of a run. -/
def afterCommits : ℕ → Program Reply Error A → Store → Store
  | _, done _, store => store
  | _, fail _, store => store
  | 0, step statement next, store =>
      if commits statement then store
      else afterCommits 0 (next (execution statement store).1) (execution statement store).2
  | count + 1, step statement next, store =>
      if commits statement then
        afterCommits count (next (execution statement store).1) (execution statement store).2
      else
        afterCommits (count + 1) (next (execution statement store).1)
          (execution statement store).2

/-- How many of the first `count` statements of a run commit. -/
def committed : ℕ → Program Reply Error A → Store → ℕ
  | count + 1, step statement next, store =>
      committed count (next (execution statement store).1) (execution statement store).2 +
        if commits statement then 1 else 0
  | _, _, _ => 0

variable {execution commits}

/-- Before the first commit the store is the one at the start. -/
theorem afterCommits_zero
    (hreads : ∀ statement store, commits statement = false →
      (execution statement store).2 = store) (program : Program Reply Error A)
    (store : Store) : afterCommits execution commits 0 program store = store := by
  induction program generalizing store with
  | done value => rfl
  | fail error => rfl
  | step statement next ih =>
      rw [afterCommits]
      split
      case isTrue => rfl
      case isFalse hcommits =>
        rw [ih, hreads statement store (Bool.not_eq_true _ ▸ hcommits)]

/-- A crash leaves the store of the commits before it. -/
theorem crash_eq_afterCommits
    (hreads : ∀ statement store, commits statement = false →
      (execution statement store).2 = store) (program : Program Reply Error A) (count : ℕ)
    (store : Store) :
    crash execution count program store =
      afterCommits execution commits (committed execution commits count program store)
        program store := by
  induction program generalizing count store with
  | done value => cases count <;> rfl
  | fail error => cases count <;> rfl
  | step statement next ih =>
      cases count with
      | zero => exact (afterCommits_zero hreads _ store).symm
      | succ count =>
          rw [crash, committed, ih]
          cases hcommits : commits statement with
          | true => simp [afterCommits, hcommits]
          | false =>
              rw [if_neg Bool.false_ne_true, Nat.add_zero]
              cases committed execution commits count (next (execution statement store).1)
                (execution statement store).2 <;> simp [afterCommits, hcommits]

/-- A first part without commits is run to its end before any of them. -/
theorem afterCommits_bind {program : Program Reply Error A}
    (hwithin : program.Within fun statement => commits statement = false)
    (rest : A → Program Reply Error B) (count : ℕ) (store : Store) :
    afterCommits execution commits count (program.bind rest) store =
      match program.run execution store with
      | (.ok value, after) => afterCommits execution commits count (rest value) after
      | (.error _, after) => after := by
  induction program generalizing store with
  | done value => rfl
  | fail error => cases count <;> rfl
  | step statement next ih =>
      rw [step_bind, run_step, ← ih _ (hwithin.2 _)]
      cases count <;> simp [afterCommits, hwithin.1]

theorem afterCommits_of_within {program : Program Reply Error A}
    (hwithin : program.Within fun statement => commits statement = false) (count : ℕ)
    (store : Store) :
    afterCommits execution commits count program store = (program.run execution store).2 := by
  induction program generalizing store with
  | done value => cases count <;> rfl
  | fail error => cases count <;> rfl
  | step statement next ih =>
      rw [run_step, ← ih _ (hwithin.2 _)]
      cases count <;> simp [afterCommits, hwithin.1]

/-- Answering something else of its value changes no commit. -/
theorem afterCommits_bind_done (program : Program Reply Error A) (answer : A → B)
    (count : ℕ) (store : Store) :
    afterCommits execution commits count (program.bind fun value => done (answer value))
      store = afterCommits execution commits count program store := by
  induction program generalizing count store with
  | done value => cases count <;> rfl
  | fail error => cases count <;> rfl
  | step statement next ih =>
      cases count <;> simp [afterCommits, ih]

/-- With enough commits the run comes to its end. -/
theorem exists_afterCommits_eq_run (program : Program Reply Error A) (store : Store) :
    ∃ bound, ∀ count, bound ≤ count →
      afterCommits execution commits count program store =
        (program.run execution store).2 := by
  induction program generalizing store with
  | done value => exact ⟨0, fun count _ => by cases count <;> rfl⟩
  | fail error => exact ⟨0, fun count _ => by cases count <;> rfl⟩
  | step statement next ih =>
      obtain ⟨bound, hbound⟩ := ih (execution statement store).1 (execution statement store).2
      refine ⟨bound + 1, fun count hcount => ?_⟩
      obtain ⟨earlier, rfl⟩ := Nat.exists_eq_add_of_le' (Nat.le_of_add_left_le hcount)
      rw [run_step, afterCommits]
      split
      · exact hbound earlier (Nat.le_of_succ_le_succ hcount)
      · exact hbound (earlier + 1) (Nat.le_of_succ_le hcount)

/-- A commit is the first of the commits that follow. -/
theorem afterCommits_commit {statement : Statement} (hcommits : commits statement = true)
    (rest : Reply statement → Program Reply Error A) (count : ℕ) (store : Store) :
    afterCommits execution commits count ((call statement).bind rest) store =
      match count with
      | 0 => store
      | count + 1 => afterCommits execution commits count (rest (execution statement store).1)
          (execution statement store).2 := by
  cases count <;> simp [afterCommits, call, hcommits]

end AegisForge.Concurrency.Program
