import Mathlib.Logic.Relation
import Mathlib.Data.List.Basic
import AegisForge.Concurrency.Program

/-!
# Pools of interleaved calls

Any number of calls run against one store.  A move starts a new call or lets
one running call execute its next statement; a crashed call is one that is
never advanced again.  The history keeps which call executed which statement
on which store, so properties of runs can speak about what happened before.
-/

namespace AegisForge.Concurrency

universe u

/-- A statement that a call executed, and the store it found. -/
structure Event (Statement Store : Type u) where
  process : ℕ
  statement : Statement
  found : Store

/-- The store and the executed statements, newest first. -/
structure History (Statement Store : Type u) where
  store : Store
  trace : List (Event Statement Store)

variable {Statement Call Store Error Value : Type u} {Reply : Statement → Type u}

def History.record (execution : Execution Reply Store)
    (history : History Statement Store) (process : ℕ) (statement : Statement) :
    History Statement Store where
  store := (execution statement history.store).2
  trace := ⟨process, statement, history.store⟩ :: history.trace

@[simp]
theorem History.record_store (execution : Execution Reply Store)
    (history : History Statement Store) (process : ℕ) (statement : Statement) :
    (history.record execution process statement).store =
      (execution statement history.store).2 := rfl

@[simp]
theorem History.record_trace (execution : Execution Reply Store)
    (history : History Statement Store) (process : ℕ) (statement : Statement) :
    (history.record execution process statement).trace =
      ⟨process, statement, history.store⟩ :: history.trace := rfl

namespace History

/-- The statements that one process executed, newest first. -/
def own (history : History Statement Store) (process : ℕ) :
    List (Event Statement Store) :=
  history.trace.filter fun event => event.process = process

theorem own_record_self (execution : Execution Reply Store)
    (history : History Statement Store) (process : ℕ) (statement : Statement) :
    (history.record execution process statement).own process =
      ⟨process, statement, history.store⟩ :: history.own process := by
  simp [own]

theorem own_record_of_ne (execution : Execution Reply Store)
    (history : History Statement Store) {process other : ℕ} (statement : Statement)
    (hne : other ≠ process) :
    (history.record execution process statement).own other = history.own other := by
  simp [own, hne.symm]

theorem mem_own {history : History Statement Store} {process : ℕ}
    {event : Event Statement Store} :
    event ∈ history.own process ↔ event ∈ history.trace ∧ event.process = process := by
  simp [own]

end History

/-- The store that an executed statement left. -/
def Event.after (execution : Execution Reply Store) (event : Event Statement Store) :
    Store :=
  (execution event.statement event.found).2

/-- Each statement of the trace found what the one before it left, from `start`
up to `store`. -/
def Chained (execution : Execution Reply Store) (start : Store) :
    List (Event Statement Store) → Store → Prop
  | [], store => store = start
  | event :: earlier, store =>
      store = event.after execution ∧ Chained execution start earlier event.found

/-- A call that has been made, and what is left of its program. -/
structure Process (Call : Type u) (Reply : Statement → Type u)
    (Error Value : Type u) where
  call : Call
  rest : Program Reply Error Value

/-- The history and the calls in the order in which they were made. -/
structure Pool (Call : Type u) (Reply : Statement → Type u)
    (Store Error Value : Type u) where
  history : History Statement Store
  processes : List (Process Call Reply Error Value)

inductive Move (Call : Type u)
  | start (call : Call)
  | advance (index : ℕ)

/-- What is asked of a schedule: which calls may be made in a pool, and which
statement a process may execute after a history. -/
structure Schedule (Call : Type u) (Reply : Statement → Type u)
    (Store Error Value : Type u) where
  starts : Pool Call Reply Store Error Value → Call → Prop
  permits : ℕ → Statement → History Statement Store → Prop

/-- Every interleaving. -/
def Schedule.unrestricted : Schedule Call Reply Store Error Value where
  starts := fun _ _ => True
  permits := fun _ _ _ => True

/-- The schedule whose calls are those known in advance. -/
def Schedule.foresee (schedule : Schedule Call Reply Store Error Value)
    (calls : ℕ → Option Call) : Schedule Call Reply Store Error Value where
  starts := fun pool call =>
    schedule.starts pool call ∧ calls pool.processes.length = some call
  permits := schedule.permits

namespace Pool

def call? (pool : Pool Call Reply Store Error Value) (index : ℕ) : Option Call :=
  pool.processes[index]?.map Process.call

/-- A store at which no call has been made yet. -/
def idle (store : Store) : Pool Call Reply Store Error Value where
  history := ⟨store, []⟩
  processes := []

/-- The pool with one more call. -/
def start (body : Call → Program Reply Error Value)
    (pool : Pool Call Reply Store Error Value) (call : Call) :
    Pool Call Reply Store Error Value :=
  { pool with processes := pool.processes ++ [⟨call, body call⟩] }

/-- The pool after call `index` executed `statement`. -/
def execute (execution : Execution Reply Store)
    (pool : Pool Call Reply Store Error Value) (index : ℕ) (call : Call)
    (statement : Statement) (next : Reply statement → Program Reply Error Value) :
    Pool Call Reply Store Error Value where
  history := pool.history.record execution index statement
  processes :=
    pool.processes.set index
      ⟨call, next (execution statement pool.history.store).1⟩

/-- One step of a schedule. -/
inductive Step (execution : Execution Reply Store)
    (body : Call → Program Reply Error Value)
    (schedule : Schedule Call Reply Store Error Value)
    (pool : Pool Call Reply Store Error Value) :
    Pool Call Reply Store Error Value → Prop
  | start (call : Call) (hstarts : schedule.starts pool call) :
      Step execution body schedule pool (pool.start body call)
  | execute {index : ℕ} {call : Call} {statement : Statement}
      {next : Reply statement → Program Reply Error Value}
      (hprocess : pool.processes[index]? = some ⟨call, .step statement next⟩)
      (hpermits : schedule.permits index statement pool.history) :
      Step execution body schedule pool
        (pool.execute execution index call statement next)

/-- The pools that the schedule can lead to. -/
def Reaches (execution : Execution Reply Store)
    (body : Call → Program Reply Error Value)
    (schedule : Schedule Call Reply Store Error Value) :
    Pool Call Reply Store Error Value → Pool Call Reply Store Error Value → Prop :=
  Relation.ReflTransGen (Step execution body schedule)

variable {execution : Execution Reply Store}
variable {body : Call → Program Reply Error Value}
variable {schedule : Schedule Call Reply Store Error Value}

/-- An invariant of the steps holds in every reachable pool. -/
theorem Reaches.invariant (holds : Pool Call Reply Store Error Value → Prop)
    (hstep : ∀ pool after, holds pool → Step execution body schedule pool after →
      holds after)
    {pool after : Pool Call Reply Store Error Value}
    (hreaches : Reaches execution body schedule pool after) (hholds : holds pool) :
    holds after := by
  induction hreaches with
  | refl => exact hholds
  | tail _ hnext ih => exact hstep _ _ ih hnext

theorem Reaches.chained {start : Store} {pool after : Pool Call Reply Store Error Value}
    (hreaches : Reaches execution body schedule pool after)
    (hchained : Chained execution start pool.history.trace pool.history.store) :
    Chained execution start after.history.trace after.history.store := by
  refine hreaches.invariant
    (fun pool => Chained execution start pool.history.trace pool.history.store)
    (fun pool after hpool hstep => ?_) hchained
  cases hstep with
  | start call hstarts => exact hpool
  | execute hprocess hpermits => exact ⟨rfl, hpool⟩

/-- What every statement keeps, once found, still holds at the end. -/
theorem kept_of_chained (holds : Store → Prop)
    (hkept : ∀ statement store, holds store → holds (execution statement store).2)
    {start : Store} {trace : List (Event Statement Store)} {store : Store}
    (hchained : Chained execution start trace store) {event : Event Statement Store}
    (hevent : event ∈ trace) (hfound : holds event.found) : holds store := by
  induction trace generalizing store with
  | nil => cases hevent
  | cons latest earlier ih =>
      obtain ⟨rfl, hearlier⟩ := hchained
      apply hkept
      rcases List.mem_cons.mp hevent with rfl | hevent
      · exact hfound
      · exact ih hearlier hevent

/-- What every statement keeps, once brought about, still holds at the end. -/
theorem kept_of_after (holds : Store → Prop)
    (hkept : ∀ statement store, holds store → holds (execution statement store).2)
    {start : Store} {trace : List (Event Statement Store)} {store : Store}
    (hchained : Chained execution start trace store) {event : Event Statement Store}
    (hevent : event ∈ trace) (hafter : holds (event.after execution)) : holds store := by
  induction trace generalizing store with
  | nil => cases hevent
  | cons latest earlier ih =>
      obtain ⟨rfl, hearlier⟩ := hchained
      rcases List.mem_cons.mp hevent with rfl | hevent
      · exact hafter
      · exact hkept _ _ (ih hearlier hevent)

/-! ## Concrete schedules -/

/-- One move.  Advancing a call that is finished, or that was never made,
changes nothing. -/
def move (execution : Execution Reply Store) (body : Call → Program Reply Error Value)
    (pool : Pool Call Reply Store Error Value) :
    Move Call → Pool Call Reply Store Error Value
  | .start call => pool.start body call
  | .advance index =>
      match pool.processes[index]? with
      | some ⟨call, .step statement next⟩ =>
          pool.execute execution index call statement next
      | _ => pool

/-- A whole list of moves. -/
def run (execution : Execution Reply Store) (body : Call → Program Reply Error Value)
    (pool : Pool Call Reply Store Error Value) (moves : List (Move Call)) :
    Pool Call Reply Store Error Value :=
  moves.foldl (move execution body) pool

theorem reaches_move (pool : Pool Call Reply Store Error Value) (next : Move Call) :
    Reaches execution body .unrestricted pool (pool.move execution body next) := by
  cases next with
  | start call => exact Relation.ReflTransGen.single (Step.start call trivial)
  | advance index =>
      rw [move]
      split
      case h_1 call statement rest hprocess =>
        exact Relation.ReflTransGen.single (Step.execute hprocess trivial)
      case h_2 => exact Relation.ReflTransGen.refl

theorem reaches_run (pool : Pool Call Reply Store Error Value)
    (moves : List (Move Call)) :
    Reaches execution body .unrestricted pool (pool.run execution body moves) := by
  induction moves generalizing pool with
  | nil => exact Relation.ReflTransGen.refl
  | cons next moves ih => exact (reaches_move pool next).trans (ih _)

/-- Whether the schedule allows every move of a list. -/
def allows (execution : Execution Reply Store) (body : Call → Program Reply Error Value)
    (schedule : Schedule Call Reply Store Error Value)
    [∀ pool call, Decidable (schedule.starts pool call)]
    [∀ index statement history, Decidable (schedule.permits index statement history)]
    (pool : Pool Call Reply Store Error Value) : List (Move Call) → Bool
  | [] => true
  | .start call :: moves =>
      decide (schedule.starts pool call) &&
        (pool.start body call).allows execution body schedule moves
  | .advance index :: moves =>
      match pool.processes[index]? with
      | some ⟨call, .step statement next⟩ =>
          decide (schedule.permits index statement pool.history) &&
            (pool.execute execution index call statement next).allows execution body schedule
              moves
      | _ => pool.allows execution body schedule moves

theorem reaches_run_of_allows [∀ pool call, Decidable (schedule.starts pool call)]
    [∀ index statement history, Decidable (schedule.permits index statement history)]
    {pool : Pool Call Reply Store Error Value} {moves : List (Move Call)}
    (hallows : pool.allows execution body schedule moves = true) :
    Reaches execution body schedule pool (pool.run execution body moves) := by
  induction moves generalizing pool with
  | nil => exact Relation.ReflTransGen.refl
  | cons next moves ih =>
      cases next with
      | start call =>
          rw [allows, Bool.and_eq_true, decide_eq_true_eq] at hallows
          exact Relation.ReflTransGen.head (Step.start call hallows.1) (ih hallows.2)
      | advance index =>
          rw [allows] at hallows
          rw [run, List.foldl_cons, move]
          split at hallows
          case h_1 call statement rest hprocess =>
            rw [Bool.and_eq_true, decide_eq_true_eq] at hallows
            exact Relation.ReflTransGen.head (Step.execute hprocess hallows.1) (ih hallows.2)
          case h_2 => exact ih hallows

/-! ## Processes after a step -/

theorem getElem?_start_cases {pool : Pool Call Reply Store Error Value} {call : Call}
    {index : ℕ} {process : Process Call Reply Error Value}
    (hprocess : (pool.start body call).processes[index]? = some process) :
    pool.processes[index]? = some process ∨
      (index = pool.processes.length ∧ process = ⟨call, body call⟩) := by
  rw [start, List.getElem?_append] at hprocess
  split at hprocess
  case isTrue => exact Or.inl hprocess
  case isFalse hge =>
    rw [List.getElem?_singleton] at hprocess
    split at hprocess
    case isTrue hzero => exact Or.inr ⟨by omega, (Option.some.inj hprocess).symm⟩
    case isFalse => cases hprocess

theorem getElem?_execute_cases {pool : Pool Call Reply Store Error Value}
    {index other : ℕ} {call : Call} {statement : Statement}
    {next : Reply statement → Program Reply Error Value}
    {process : Process Call Reply Error Value}
    (hprocess : (pool.execute execution index call statement next).processes[other]? =
      some process) :
    (other = index ∧
        process = ⟨call, next (execution statement pool.history.store).1⟩) ∨
      (other ≠ index ∧ pool.processes[other]? = some process) := by
  by_cases hother : other = index
  · subst hother
    left
    rw [execute, List.getElem?_set] at hprocess
    split at hprocess
    case isTrue =>
      split at hprocess
      case isTrue => exact ⟨rfl, (Option.some.inj hprocess).symm⟩
      case isFalse => cases hprocess
    case isFalse hne => exact absurd rfl hne
  · right
    rw [execute, List.getElem?_set_ne (Ne.symm hother)] at hprocess
    exact ⟨hother, hprocess⟩

/-! ## Calls known in advance -/

theorem call?_start (pool : Pool Call Reply Store Error Value) (call : Call) (index : ℕ) :
    (pool.start body call).call? index =
      if index = pool.processes.length then some call else pool.call? index := by
  rw [call?, call?, start, List.getElem?_append]
  by_cases hindex : index < pool.processes.length
  · rw [if_pos hindex, if_neg (Nat.ne_of_lt hindex)]
  · rw [if_neg hindex, List.getElem?_singleton]
    have hnone : pool.processes[index]? = none :=
      List.getElem?_eq_none (Nat.le_of_not_lt hindex)
    by_cases hlast : index = pool.processes.length
    · rw [if_pos hlast, if_pos (by omega)]
      rfl
    · rw [if_neg hlast, if_neg (by omega), hnone]

theorem call?_execute {pool : Pool Call Reply Store Error Value} {index : ℕ} {call : Call}
    {statement : Statement} {next : Reply statement → Program Reply Error Value}
    (hprocess : pool.processes[index]? = some ⟨call, .step statement next⟩) (other : ℕ) :
    (pool.execute execution index call statement next).call? other =
      pool.call? other := by
  rw [call?, call?, execute]
  by_cases hother : index = other
  · subst hother
    rw [List.getElem?_set_self' , hprocess]
    rfl
  · rw [List.getElem?_set_ne hother]

/-- A call that has been made stays the call of its index. -/
theorem call?_run_of_some {pool : Pool Call Reply Store Error Value} {index : ℕ}
    {call : Call} (hcall : pool.call? index = some call) (moves : List (Move Call)) :
    (pool.run execution body moves).call? index = some call := by
  induction moves generalizing pool with
  | nil => exact hcall
  | cons next moves ih =>
      apply ih
      cases next with
      | start other =>
          have hindex : index ≠ pool.processes.length := by
            rintro rfl
            simp [call?] at hcall
          rw [move, call?_start, if_neg hindex]
          exact hcall
      | advance other =>
          rw [move]
          split
          case h_1 hprocess =>
            rw [call?_execute hprocess]
            exact hcall
          case h_2 => exact hcall

/-- A run makes exactly the calls that its last pool lists. -/
theorem Reaches.foreseen {pool after : Pool Call Reply Store Error Value}
    (hreaches : Reaches execution body schedule pool after) :
    Reaches execution body (schedule.foresee after.call?) pool after := by
  have hprefix : ∀ calls : ℕ → Option Call,
      (∀ index call, after.call? index = some call → calls index = some call) →
        Reaches execution body (schedule.foresee calls) pool after := by
    induction hreaches with
    | refl => exact fun _ _ => Relation.ReflTransGen.refl
    | @tail between after _ hstep ih =>
        intro calls hcalls
        cases hstep with
        | start call hstarts =>
            have hlast := hcalls between.processes.length call
              (by rw [call?_start, if_pos rfl])
            refine (ih calls fun index earlier hearlier => hcalls index earlier ?_).tail
              (Step.start call ⟨hstarts, hlast⟩)
            rw [call?_start, if_neg ?_]
            · exact hearlier
            · rintro rfl
              simp [call?] at hearlier
        | execute hprocess hpermits =>
            refine (ih calls fun index earlier hearlier => hcalls index earlier ?_).tail
              (Step.execute hprocess hpermits)
            rw [call?_execute hprocess]
            exact hearlier
  exact hprefix after.call? fun _ _ hcall => hcall

end Pool

end AegisForge.Concurrency
