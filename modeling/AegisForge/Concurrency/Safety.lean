import AegisForge.Concurrency.Pool

/-!
# Rely and guarantee for programs of statements

`Rules` fixes an invariant of histories, what one process may rely on while
others run, and what a process must establish before each statement.  The
laws are about single statements.  `Safe` then says that every statement of a
program is established before it runs, whatever the others do in between, and
the main theorem carries it to every interleaving of any number of calls.
-/

namespace AegisForge.Concurrency

universe u

variable {Statement Call Store Error Value A B : Type u}
variable {Reply : Statement → Type u}

/-- An invariant with the conditions under which a statement keeps it. -/
structure Rules (execution : Execution Reply Store) where
  /-- Holds after every history. -/
  invariant : History Statement Store → Prop
  /-- What the schedule promises when a process executes a statement. -/
  permits : ℕ → Statement → History Statement Store → Prop
  /-- What a process establishes before it executes a statement. -/
  requires : ℕ → Statement → History Statement Store → Prop
  /-- What the other processes may do to a history, as one process sees it. -/
  rely : ℕ → History Statement Store → History Statement Store → Prop
  rely_refl : ∀ process history, rely process history history
  rely_trans : ∀ {process first second third},
    rely process first second → rely process second third → rely process first third
  invariant_record : ∀ {process statement history}, invariant history →
    permits process statement history → requires process statement history →
      invariant (history.record execution process statement)
  rely_record : ∀ {process other statement history}, other ≠ process →
    invariant history → permits process statement history →
      requires process statement history →
        rely other history (history.record execution process statement)

namespace Rules

variable {execution : Execution Reply Store} (rules : Rules execution)

/-- Process `process` may run the program from `history` on: it establishes
every statement it executes, and ends in `returns` or `raises`. -/
def Safe (process : ℕ) (returns : A → History Statement Store → Prop)
    (raises : Error → History Statement Store → Prop) :
    Program Reply Error A → History Statement Store → Prop
  | .done value, history =>
      ∀ later, rules.rely process history later → rules.invariant later →
        returns value later
  | .fail error, history =>
      ∀ later, rules.rely process history later → rules.invariant later →
        raises error later
  | .step statement next, history =>
      ∀ later, rules.rely process history later → rules.invariant later →
        rules.permits process statement later →
          rules.requires process statement later ∧
            Safe process returns raises (next (execution statement later.store).1)
              (later.record execution process statement)

variable {rules} {process : ℕ} {history later : History Statement Store}
variable {returns returns' : A → History Statement Store → Prop}
variable {raises raises' : Error → History Statement Store → Prop}

/-- What the others do in between does not matter. -/
theorem Safe.rely {program : Program Reply Error A}
    (hsafe : rules.Safe process returns raises program history)
    (hrely : rules.rely process history later) :
    rules.Safe process returns raises program later := by
  cases program with
  | done value => exact fun last hlast => hsafe last (rules.rely_trans hrely hlast)
  | fail error => exact fun last hlast => hsafe last (rules.rely_trans hrely hlast)
  | step statement next =>
      exact fun last hlast => hsafe last (rules.rely_trans hrely hlast)

theorem Safe.weaken {program : Program Reply Error A}
    (hsafe : rules.Safe process returns raises program history)
    (hreturns : ∀ value later, rules.invariant later → returns value later →
      returns' value later)
    (hraises : ∀ error later, rules.invariant later → raises error later →
      raises' error later) :
    rules.Safe process returns' raises' program history := by
  induction program generalizing history with
  | done value =>
      exact fun later hrely hinvariant =>
        hreturns value later hinvariant (hsafe later hrely hinvariant)
  | fail error =>
      exact fun later hrely hinvariant =>
        hraises error later hinvariant (hsafe later hrely hinvariant)
  | step statement next ih =>
      intro later hrely hinvariant hpermits
      obtain ⟨hrequires, hnext⟩ := hsafe later hrely hinvariant hpermits
      exact ⟨hrequires, ih _ hnext⟩

/-- A sequence is safe when its first part ends where the second is safe. -/
theorem Safe.bind {program : Program Reply Error A}
    {rest : A → Program Reply Error B}
    {final : B → History Statement Store → Prop}
    (hsafe : rules.Safe process
      (fun value later => rules.Safe process final raises (rest value) later)
      raises program history)
    (hinvariant : rules.invariant history) :
    rules.Safe process final raises (program.bind rest) history := by
  induction program generalizing history with
  | done value =>
      exact hsafe history (rules.rely_refl process history) hinvariant
  | fail error => exact hsafe
  | step statement next ih =>
      intro later hrely hlater hpermits
      obtain ⟨hrequires, hnext⟩ := hsafe later hrely hlater hpermits
      exact ⟨hrequires, ih _ hnext (rules.invariant_record hlater hpermits hrequires)⟩

theorem Safe.tryCatch {program : Program Reply Error A}
    {handler : Error → Program Reply Error A}
    (hsafe : rules.Safe process returns
      (fun error later => rules.Safe process returns raises (handler error) later)
      program history)
    (hinvariant : rules.invariant history) :
    rules.Safe process returns raises (program.tryCatch handler) history := by
  induction program generalizing history with
  | done value => exact hsafe
  | fail error =>
      exact hsafe history (rules.rely_refl process history) hinvariant
  | step statement next ih =>
      intro later hrely hlater hpermits
      obtain ⟨hrequires, hnext⟩ := hsafe later hrely hlater hpermits
      exact ⟨hrequires, ih _ hnext (rules.invariant_record hlater hpermits hrequires)⟩

/-- `bind` with what the first part promises on each way out. -/
theorem Safe.andThen {program : Program Reply Error A}
    {rest : A → Program Reply Error B} {middle : A → History Statement Store → Prop}
    {final : B → History Statement Store → Prop}
    (hsafe : rules.Safe process middle raises' program history)
    (hrest : ∀ value later, rules.invariant later → middle value later →
      rules.Safe process final raises (rest value) later)
    (hraises : ∀ error later, rules.invariant later → raises' error later →
      raises error later)
    (hinvariant : rules.invariant history) :
    rules.Safe process final raises (program.bind rest) history :=
  Safe.bind (hsafe.weaken hrest hraises) hinvariant

/-- `tryCatch` with what the program promises when it raises. -/
theorem Safe.orElse {program : Program Reply Error A}
    {handler : Error → Program Reply Error A}
    (hsafe : rules.Safe process returns raises' program history)
    (hhandler : ∀ error later, rules.invariant later → raises' error later →
      rules.Safe process returns raises (handler error) later)
    (hinvariant : rules.invariant history) :
    rules.Safe process returns raises (program.tryCatch handler) history :=
  Safe.tryCatch (hsafe.weaken (fun _ _ _ hreturns => hreturns) hhandler) hinvariant

/-- Two promises about one program hold together. -/
theorem Safe.and {program : Program Reply Error A}
    (hfirst : rules.Safe process returns raises program history)
    (hsecond : rules.Safe process returns' raises' program history) :
    rules.Safe process (fun value later => returns value later ∧ returns' value later)
      (fun error later => raises error later ∧ raises' error later) program history := by
  induction program generalizing history with
  | done value =>
      intro later hrely hinvariant
      exact ⟨hfirst later hrely hinvariant, hsecond later hrely hinvariant⟩
  | fail error =>
      intro later hrely hinvariant
      exact ⟨hfirst later hrely hinvariant, hsecond later hrely hinvariant⟩
  | step statement next ih =>
      intro later hrely hinvariant hpermits
      obtain ⟨hrequires, hnext⟩ := hfirst later hrely hinvariant hpermits
      exact ⟨hrequires, ih _ hnext (hsecond later hrely hinvariant hpermits).2⟩

/-- Translating errors changes nothing when nothing is said about them. -/
theorem Safe.mapError {program : Program Reply Error A} {translate : Error → Error}
    (hsafe : rules.Safe process returns (fun _ _ => True) program history)
    (hinvariant : rules.invariant history) :
    rules.Safe process returns (fun _ _ => True) (program.mapError translate) history :=
  hsafe.orElse (fun _ _ _ _ _ _ _ => trivial) hinvariant

/-! ## Rules for the shapes of programs -/

theorem Safe.call {statement : Statement} {rest : Reply statement → Program Reply Error A}
    (hcall : ∀ later, rules.rely process history later → rules.invariant later →
      rules.permits process statement later →
        rules.requires process statement later ∧
          rules.Safe process returns raises (rest (execution statement later.store).1)
            (later.record execution process statement)) :
    rules.Safe process returns raises ((Program.call statement).bind rest) history :=
  hcall

theorem Safe.raiseIf {condition : Prop} [Decidable condition] {error : Error}
    {rest : PUnit → Program Reply Error A}
    (hraise : condition → rules.Safe process returns raises (.fail error) history)
    (hrest : ¬condition → rules.Safe process returns raises (rest ⟨⟩) history) :
    rules.Safe process returns raises
      ((Program.raiseIf condition error).bind rest) history := by
  by_cases hcondition : condition
  · simpa [Program.raiseIf, hcondition] using hraise hcondition
  · simpa [Program.raiseIf, hcondition] using hrest hcondition

theorem Safe.ofExcept {result : Except Error B} {rest : B → Program Reply Error A}
    (herror : ∀ error, result = .error error →
      rules.Safe process returns raises (.fail error) history)
    (hok : ∀ value, result = .ok value →
      rules.Safe process returns raises (rest value) history) :
    rules.Safe process returns raises ((Program.ofExcept result).bind rest) history := by
  cases result with
  | error error => exact herror error rfl
  | ok value => exact hok value rfl

/-- A program whose statements keep what they need established is safe. -/
theorem safe_of_stable {allowed : Statement → Prop}
    {holds : History Statement Store → Prop}
    (hrequires : ∀ statement history, allowed statement → holds history →
      rules.invariant history → rules.permits process statement history →
        rules.requires process statement history)
    (hrely : ∀ history later, holds history → rules.rely process history later →
      holds later)
    (hrecord : ∀ statement history, allowed statement → holds history →
      rules.invariant history → rules.permits process statement history →
        holds (history.record execution process statement))
    {program : Program Reply Error A} (hwithin : program.Within allowed)
    (hholds : holds history) :
    rules.Safe process (fun _ later => holds later) (fun _ later => holds later) program
      history := by
  induction program generalizing history with
  | done value => exact fun later hlater _ => hrely history later hholds hlater
  | fail error => exact fun later hlater _ => hrely history later hholds hlater
  | step statement next ih =>
      intro later hlater hinvariant hpermits
      have hheld := hrely history later hholds hlater
      have hnext := hrecord statement later hwithin.1 hheld hinvariant hpermits
      exact ⟨hrequires statement later hwithin.1 hheld hinvariant hpermits,
        ih _ (hwithin.2 _) hnext⟩

/-- A program whose statements need nothing established is safe. -/
theorem safe_of_within {allowed : Statement → Prop}
    (hallowed : ∀ statement history, allowed statement → rules.invariant history →
      rules.permits process statement history →
        rules.requires process statement history)
    {program : Program Reply Error A} (hwithin : program.Within allowed) :
    rules.Safe process (fun _ _ => True) (fun _ _ => True) program history :=
  safe_of_stable (fun statement last hstatement _ => hallowed statement last hstatement)
    (fun _ _ _ _ => trivial) (fun _ _ _ _ _ _ => trivial) hwithin trivial

/-! ## Relying on what the others establish -/

section Interference

variable (execution) (invariant : History Statement Store → Prop)
variable (permits requires : ℕ → Statement → History Statement Store → Prop)

/-- Another process executed a statement that it had established. -/
def Interferes (process : ℕ) (history after : History Statement Store) : Prop :=
  ∃ other statement, other ≠ process ∧ invariant history ∧
    permits other statement history ∧ requires other statement history ∧
      after = history.record execution other statement

/-- The rules under which a process relies on nothing but that the others keep
the rules. -/
def ofInvariant
    (hrecord : ∀ {process statement history}, invariant history →
      permits process statement history → requires process statement history →
        invariant (history.record execution process statement)) : Rules execution where
  invariant := invariant
  permits := permits
  requires := requires
  rely := fun process =>
    Relation.ReflTransGen (Interferes execution invariant permits requires process)
  rely_refl := fun _ _ => Relation.ReflTransGen.refl
  rely_trans := Relation.ReflTransGen.trans
  invariant_record := hrecord
  rely_record := fun hne hinvariant hpermits hrequires =>
    Relation.ReflTransGen.single ⟨_, _, hne.symm, hinvariant, hpermits, hrequires, rfl⟩

variable {execution invariant permits requires}

/-- What no other process can end stays true. -/
theorem stable_of_interferes (holds : History Statement Store → Prop)
    (hstable : ∀ other statement history, other ≠ process → invariant history →
      permits other statement history → requires other statement history →
        holds history → holds (history.record execution other statement))
    (hrely : Relation.ReflTransGen
      (Interferes execution invariant permits requires process) history later)
    (hholds : holds history) : holds later := by
  induction hrely with
  | refl => exact hholds
  | tail _ hstep ih =>
      obtain ⟨other, statement, hne, hinvariant, hpermits, hrequires, rfl⟩ := hstep
      exact hstable other statement _ hne hinvariant hpermits hrequires ih

/-- What every statement keeps stays true of the store. -/
theorem kept_of_interferes (holds : Store → Prop)
    (hkept : ∀ statement store, holds store → holds (execution statement store).2)
    (hrely : Relation.ReflTransGen
      (Interferes execution invariant permits requires process) history later)
    (hholds : holds history.store) : holds later.store :=
  stable_of_interferes (fun last => holds last.store)
    (fun _ statement last _ _ _ _ hlast => hkept statement last.store hlast) hrely hholds

/-- The others do not add to the statements of the process. -/
theorem own_of_interferes
    (hrely : Relation.ReflTransGen
      (Interferes execution invariant permits requires process) history later) :
    later.own process = history.own process := by
  refine stable_of_interferes (fun last => last.own process = history.own process)
    (fun other statement last hne _ _ _ hlast => ?_) hrely rfl
  rw [History.own_record_of_ne execution last statement (Ne.symm hne), hlast]

end Interference

/-! ## Every interleaving -/

variable {body : Call → Program Reply Error Value}
variable {schedule : Schedule Call Reply Store Error Value}

/-- The invariant holds and every call of the pool is safe from here on. -/
structure Sound (rules : Rules execution)
    (returned : ℕ → Call → Value → History Statement Store → Prop)
    (raised : ℕ → Call → Error → History Statement Store → Prop)
    (pool : Pool Call Reply Store Error Value) : Prop where
  invariant : rules.invariant pool.history
  known : ∀ event ∈ pool.history.trace, event.process < pool.processes.length
  safe : ∀ index process, pool.processes[index]? = some process →
    rules.Safe index (returned index process.call) (raised index process.call)
      process.rest pool.history

variable {returned : ℕ → Call → Value → History Statement Store → Prop}
variable {raised : ℕ → Call → Error → History Statement Store → Prop}

theorem Sound.idle {store : Store} (hinvariant : rules.invariant ⟨store, []⟩) :
    Sound rules returned raised (Pool.idle store : Pool Call Reply Store Error Value) where
  invariant := hinvariant
  known := by simp [Pool.idle]
  safe := by simp [Pool.idle]

theorem Sound.own_fresh {pool : Pool Call Reply Store Error Value}
    (hsound : Sound rules returned raised pool) :
    pool.history.own pool.processes.length = [] := by
  rw [History.own, List.filter_eq_nil_iff]
  intro event hevent
  have hknown := hsound.known event hevent
  simp only [decide_eq_true_eq]
  omega

theorem Sound.step {pool after : Pool Call Reply Store Error Value}
    (hpermits : ∀ index statement history,
      schedule.permits index statement history → rules.permits index statement history)
    (hbody : ∀ pool call, schedule.starts pool call → rules.invariant pool.history →
      pool.history.own pool.processes.length = [] →
      rules.Safe pool.processes.length (returned pool.processes.length call)
        (raised pool.processes.length call) (body call) pool.history)
    (hsound : Sound rules returned raised pool)
    (hstep : Pool.Step execution body schedule pool after) :
    Sound rules returned raised after := by
  cases hstep with
  | start call hstarts =>
      refine ⟨hsound.invariant, fun event hevent => ?_, fun index process hprocess => ?_⟩
      · have hknown := hsound.known event hevent
        rw [Pool.start, List.length_append]
        omega
      · rcases Pool.getElem?_start_cases hprocess with hold | ⟨rfl, rfl⟩
        · exact hsound.safe index process hold
        · exact hbody pool call hstarts hsound.invariant hsound.own_fresh
  | @execute index call statement next hprocess hallowed =>
      have hallowed' := hpermits index statement pool.history hallowed
      obtain ⟨hrequires, hnext⟩ := hsound.safe index _ hprocess pool.history
        (rules.rely_refl index pool.history) hsound.invariant hallowed'
      have hindex : index < pool.processes.length :=
        (List.getElem?_eq_some_iff.mp hprocess).1
      refine ⟨rules.invariant_record hsound.invariant hallowed' hrequires,
        fun event hevent => ?_, fun other process hother => ?_⟩
      · rw [Pool.execute, List.length_set]
        rcases List.mem_cons.mp hevent with rfl | hevent
        · exact hindex
        · exact hsound.known event hevent
      · rcases Pool.getElem?_execute_cases hother with ⟨rfl, rfl⟩ | ⟨hne, hold⟩
        · exact hnext
        · exact (hsound.safe other process hold).rely
            (rules.rely_record hne hsound.invariant hallowed' hrequires)

/-- Calls that are safe when they start keep the invariant in every pool that
an allowed schedule reaches. -/
theorem Sound.reaches {pool after : Pool Call Reply Store Error Value}
    (hpermits : ∀ index statement history,
      schedule.permits index statement history → rules.permits index statement history)
    (hbody : ∀ pool call, schedule.starts pool call → rules.invariant pool.history →
      pool.history.own pool.processes.length = [] →
      rules.Safe pool.processes.length (returned pool.processes.length call)
        (raised pool.processes.length call) (body call) pool.history)
    (hsound : Sound rules returned raised pool)
    (hreaches : Pool.Reaches execution body schedule pool after) :
    Sound rules returned raised after :=
  hreaches.invariant (Sound rules returned raised)
    (fun _ _ hpool hstep => hpool.step hpermits hbody hstep) hsound

theorem Sound.of_done {pool : Pool Call Reply Store Error Value}
    (hsound : Sound rules returned raised pool) {index : ℕ} {call : Call}
    {value : Value} (hprocess : pool.processes[index]? = some ⟨call, .done value⟩) :
    returned index call value pool.history :=
  hsound.safe index _ hprocess pool.history (rules.rely_refl _ _) hsound.invariant

theorem Sound.of_fail {pool : Pool Call Reply Store Error Value}
    (hsound : Sound rules returned raised pool) {index : ℕ} {call : Call}
    {error : Error} (hprocess : pool.processes[index]? = some ⟨call, .fail error⟩) :
    raised index call error pool.history :=
  hsound.safe index _ hprocess pool.history (rules.rely_refl _ _) hsound.invariant

end Rules

end AegisForge.Concurrency
