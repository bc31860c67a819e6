import Mathlib.Data.Nat.Notation

/-!
# Programs made of atomic statements

A caller of a shared store is a finite tree of atomic statements.  A statement
runs at once against the store and answers a reply, on which the rest of the
caller depends, so everything that may happen between two statements is left
to the environment.  A caller ends by returning a value or raising an error.
-/

namespace AegisForge.Concurrency

universe u

/-- What each statement answers, and the store it leaves. -/
abbrev Execution {Statement : Type u} (Reply : Statement → Type u)
    (Store : Type u) : Type u :=
  (statement : Statement) → Store → Reply statement × Store

/-- A caller whose statements answer replies of the types `Reply`. -/
inductive Program {Statement : Type u} (Reply : Statement → Type u)
    (Error Value : Type u) : Type u
  | done (value : Value)
  | fail (error : Error)
  | step (statement : Statement)
      (next : Reply statement → Program Reply Error Value)

namespace Program

variable {Statement Store Error A B : Type u} {Reply : Statement → Type u}

def bind : Program Reply Error A → (A → Program Reply Error B) →
    Program Reply Error B
  | done value, rest => rest value
  | fail error, _ => fail error
  | step statement next, rest =>
      step statement fun reply => (next reply).bind rest

def tryCatch : Program Reply Error A → (Error → Program Reply Error A) →
    Program Reply Error A
  | done value, _ => done value
  | fail error, handler => handler error
  | step statement next, handler =>
      step statement fun reply => (next reply).tryCatch handler

instance : Monad (Program Reply Error) where
  pure := done
  bind := bind

@[simp]
theorem pure_eq (value : A) : (pure value : Program Reply Error A) = done value := rfl

@[simp]
theorem bind_eq (program : Program Reply Error A)
    (rest : A → Program Reply Error B) : program >>= rest = program.bind rest := rfl

@[simp]
theorem done_bind (value : A) (rest : A → Program Reply Error B) :
    (done value).bind rest = rest value := rfl

@[simp]
theorem fail_bind (error : Error) (rest : A → Program Reply Error B) :
    (fail error : Program Reply Error A).bind rest = fail error := rfl

@[simp]
theorem step_bind (statement : Statement)
    (next : Reply statement → Program Reply Error A)
    (rest : A → Program Reply Error B) :
    (step statement next).bind rest =
      step statement fun reply => (next reply).bind rest := rfl

/-- Whether the program has returned or raised. -/
def isFinished : Program Reply Error A → Bool
  | step _ _ => false
  | _ => true

def hasRaised : Program Reply Error A → Bool
  | fail _ => true
  | _ => false

/-- Run one statement and answer its reply. -/
def call (statement : Statement) : Program Reply Error (Reply statement) :=
  step statement done

/-- `if condition: raise error`. -/
def raiseIf (condition : Prop) [Decidable condition] (error : Error) :
    Program Reply Error PUnit :=
  if condition then fail error else done ⟨⟩

/-- Raise what a pure computation raised, or go on with its value. -/
def ofExcept : Except Error A → Program Reply Error A
  | .ok value => done value
  | .error error => fail error

/-- `try: program except ...: raise`, with the exception translated. -/
def mapError (translate : Error → Error) (program : Program Reply Error A) :
    Program Reply Error A :=
  program.tryCatch fun error => fail (translate error)

/-- A program of one system as a program of a larger one, whose statements include
those of the first. -/
def embed {Larger : Type u} {LargerReply : Larger → Type u} (inject : Statement → Larger)
    (reply : ∀ statement, LargerReply (inject statement) → Reply statement) :
    Program Reply Error A → Program LargerReply Error A
  | done value => done value
  | fail error => fail error
  | step statement next =>
      step (inject statement) fun answer => (next (reply statement answer)).embed inject reply

/-! ## The statements a program may execute -/

/-- Whatever the replies, only allowed statements are executed. -/
def Within (allowed : Statement → Prop) : Program Reply Error A → Prop
  | done _ => True
  | fail _ => True
  | step statement next =>
      allowed statement ∧ ∀ reply, (next reply).Within allowed

variable {allowed : Statement → Prop}

theorem within_true (program : Program Reply Error A) : program.Within fun _ => True := by
  induction program with
  | done value => trivial
  | fail error => trivial
  | step statement next ih => exact ⟨trivial, ih⟩

theorem Within.mono {wider : Statement → Prop} {program : Program Reply Error A}
    (hwithin : program.Within allowed)
    (hwider : ∀ statement, allowed statement → wider statement) :
    program.Within wider := by
  induction program with
  | done value => trivial
  | fail error => trivial
  | step statement next ih =>
      exact ⟨hwider statement hwithin.1, fun reply => ih reply (hwithin.2 reply)⟩

theorem Within.bind {program : Program Reply Error A}
    {rest : A → Program Reply Error B} (hprogram : program.Within allowed)
    (hrest : ∀ value, (rest value).Within allowed) :
    (program.bind rest).Within allowed := by
  induction program with
  | done value => exact hrest value
  | fail error => trivial
  | step statement next ih =>
      exact ⟨hprogram.1, fun reply => ih reply (hprogram.2 reply)⟩

theorem Within.tryCatch {program : Program Reply Error A}
    {handler : Error → Program Reply Error A} (hprogram : program.Within allowed)
    (hhandler : ∀ error, (handler error).Within allowed) :
    (program.tryCatch handler).Within allowed := by
  induction program with
  | done value => trivial
  | fail error => exact hhandler error
  | step statement next ih =>
      exact ⟨hprogram.1, fun reply => ih reply (hprogram.2 reply)⟩

theorem Within.embed {Larger : Type u} {LargerReply : Larger → Type u}
    {inject : Statement → Larger} {reply : ∀ statement, LargerReply (inject statement) → Reply statement}
    {wider : Larger → Prop} {program : Program Reply Error A} (hprogram : program.Within allowed)
    (hwider : ∀ statement, allowed statement → wider (inject statement)) :
    (program.embed inject reply).Within wider := by
  induction program with
  | done value => trivial
  | fail error => trivial
  | step statement next ih =>
      exact ⟨hwider statement hprogram.1, fun answer => ih _ (hprogram.2 _)⟩

theorem within_call {statement : Statement} (hallowed : allowed statement) :
    (call statement : Program Reply Error (Reply statement)).Within allowed :=
  ⟨hallowed, fun _ => trivial⟩

theorem within_ite {condition : Prop} [Decidable condition]
    {first second : Program Reply Error A} (hfirst : first.Within allowed)
    (hsecond : second.Within allowed) : (if condition then first else second).Within allowed := by
  split
  · exact hfirst
  · exact hsecond

theorem within_raiseIf {condition : Prop} [Decidable condition] {error : Error} :
    (raiseIf condition error : Program Reply Error PUnit).Within allowed := by
  rw [raiseIf]
  split <;> trivial

theorem within_ofExcept {result : Except Error A} :
    (ofExcept result : Program Reply Error A).Within allowed := by
  cases result <;> trivial

/-! ## Running alone -/

variable (execution : Execution Reply Store)

/-- The program run to its end with nobody else at the store. -/
def run : Program Reply Error A → Store → Except Error A × Store
  | done value, store => (.ok value, store)
  | fail error, store => (.error error, store)
  | step statement next, store =>
      (next (execution statement store).1).run (execution statement store).2

/-- The store after at most `count` statements run alone: what a crash at that
point leaves. -/
def crash : ℕ → Program Reply Error A → Store → Store
  | count + 1, step statement next, store =>
      crash count (next (execution statement store).1) (execution statement store).2
  | _, _, store => store

@[simp]
theorem run_done (value : A) (store : Store) :
    (done value : Program Reply Error A).run execution store = (.ok value, store) :=
  rfl

@[simp]
theorem run_fail (error : Error) (store : Store) :
    (fail error : Program Reply Error A).run execution store =
      (.error error, store) := rfl

@[simp]
theorem run_step (statement : Statement)
    (next : Reply statement → Program Reply Error A) (store : Store) :
    (step statement next).run execution store =
      (next (execution statement store).1).run execution
        (execution statement store).2 := rfl

/-- Running a sequence runs the first part and, if it returned, the second
part on the store the first one left. -/
theorem run_bind (program : Program Reply Error A)
    (rest : A → Program Reply Error B) (store : Store) :
    (program.bind rest).run execution store =
      match program.run execution store with
      | (.ok value, after) => (rest value).run execution after
      | (.error error, after) => (.error error, after) := by
  induction program generalizing store with
  | done value => rfl
  | fail error => rfl
  | step statement next ih => exact ih _ _

/-- What every allowed statement keeps, a run of them keeps. -/
theorem run_kept {allowed : Statement → Prop} {holds : Store → Prop}
    (hkept : ∀ statement store, allowed statement → holds store →
      holds (execution statement store).2) {program : Program Reply Error A}
    (hwithin : program.Within allowed) {store : Store} (hstore : holds store) :
    holds (program.run execution store).2 := by
  induction program generalizing store with
  | done value => exact hstore
  | fail error => exact hstore
  | step statement next ih =>
      exact ih _ (hwithin.2 _) (hkept statement store hwithin.1 hstore)

/-- A sequence whose first part leaves the store alone leaves it alone or goes on. -/
theorem run_bind_of_kept {program : Program Reply Error A} {rest : A → Program Reply Error B}
    {store : Store} (hkept : (program.run execution store).2 = store) :
    ((program.bind rest).run execution store).2 = store ∨
      ∃ value, program.run execution store = (.ok value, store) ∧
        (program.bind rest).run execution store = (rest value).run execution store := by
  rw [run_bind]
  rcases hrun : program.run execution store with ⟨result, after⟩
  rw [hrun] at hkept
  obtain rfl : after = store := hkept
  cases result with
  | error error => exact Or.inl rfl
  | ok value => exact Or.inr ⟨value, rfl, rfl⟩

theorem run_bind_done_store (program : Program Reply Error A) (answer : A → B) (store : Store) :
    ((program.bind fun value => done (answer value)).run execution store).2 =
      (program.run execution store).2 := by
  rw [run_bind]
  rcases program.run execution store with ⟨result, after⟩
  cases result <;> rfl

theorem run_raiseIf_store (condition : Prop) [Decidable condition] (error : Error)
    (store : Store) :
    ((raiseIf condition error : Program Reply Error PUnit).run execution store).2 = store := by
  rw [raiseIf]
  split <;> rfl

theorem run_ofExcept_store (result : Except Error A) (store : Store) :
    ((ofExcept result : Program Reply Error A).run execution store).2 = store := by
  cases result <;> rfl

/-- A sequence that returned was returned through by its first part. -/
theorem run_bind_eq_ok {program : Program Reply Error A}
    {rest : A → Program Reply Error B} {store after : Store} {value : B}
    (hrun : (program.bind rest).run execution store = (.ok value, after)) :
    ∃ middle between, program.run execution store = (.ok middle, between) ∧
      (rest middle).run execution between = (.ok value, after) := by
  rw [run_bind] at hrun
  split at hrun
  case h_1 middle between hprogram => exact ⟨middle, between, hprogram, hrun⟩
  case h_2 => cases hrun

theorem run_raiseIf_eq_ok {condition : Prop} [Decidable condition] {error : Error}
    {store after : Store} {value : PUnit}
    (hrun : (raiseIf condition error : Program Reply Error PUnit).run execution store =
      (.ok value, after)) : ¬condition ∧ after = store := by
  rw [raiseIf] at hrun
  split at hrun
  case isTrue => cases hrun
  case isFalse hcondition => exact ⟨hcondition, (Prod.mk.inj hrun).2.symm⟩

theorem run_ofExcept_eq_ok {result : Except Error A} {store after : Store} {value : A}
    (hrun : (ofExcept result : Program Reply Error A).run execution store =
      (.ok value, after)) : result = .ok value ∧ after = store := by
  cases result with
  | error error => cases hrun
  | ok computed =>
      obtain ⟨hvalue, hstore⟩ := Prod.mk.inj hrun
      exact ⟨hvalue, hstore.symm⟩

theorem run_mapError_eq_ok {translate : Error → Error} {program : Program Reply Error A}
    {store after : Store} {value : A}
    (hrun : (program.mapError translate).run execution store = (.ok value, after)) :
    program.run execution store = (.ok value, after) := by
  induction program generalizing store with
  | done computed => exact hrun
  | fail error => cases hrun
  | step statement next ih => exact ih _ hrun

theorem run_tryCatch (program : Program Reply Error A)
    (handler : Error → Program Reply Error A) (store : Store) :
    (program.tryCatch handler).run execution store =
      match program.run execution store with
      | (.ok value, after) => (.ok value, after)
      | (.error error, after) => (handler error).run execution after := by
  induction program generalizing store with
  | done value => rfl
  | fail error => rfl
  | step statement next ih => exact ih _ _

end Program

end AegisForge.Concurrency
