import Mathlib.Data.List.Chain
import AegisForge.Concurrency.Pool

/-!
# Traces of pools

A trace is cut where a property of the store begins to hold, and the program
that a call has left is the body of the call, led by the statements that it
executed itself.
-/

namespace AegisForge.Concurrency

universe u

variable {Statement Call Store Error Value : Type u} {Reply : Statement → Type u}
variable {execution : Execution Reply Store}

/-! ## Parts of a trace -/

theorem chained_append {start store : Store} {later earlier : List (Event Statement Store)} :
    Chained execution start (later ++ earlier) store ↔
      ∃ between, Chained execution start earlier between ∧
        Chained execution between later store := by
  induction later generalizing store with
  | nil => simp [Chained]
  | cons event rest ih =>
      simp only [List.cons_append, Chained, ih]
      constructor
      · rintro ⟨hstore, between, hearlier, hrest⟩
        exact ⟨between, hearlier, hstore, hrest⟩
      · rintro ⟨between, hearlier, hstore, hrest⟩
        exact ⟨hstore, between, hearlier, hrest⟩

/-- What an event in the middle of a trace found and left. -/
theorem chained_middle {start store : Store} {later earlier : List (Event Statement Store)}
    {event : Event Statement Store}
    (hchained : Chained execution start (later ++ event :: earlier) store) :
    Chained execution start earlier event.found ∧
      Chained execution (event.after execution) later store := by
  obtain ⟨between, ⟨rfl, hearlier⟩, hlater⟩ := chained_append.mp hchained
  exact ⟨hearlier, hlater⟩

/-- What every event keeps still holds at the end. -/
theorem kept_of_start (holds : Store → Prop) {start store : Store}
    {trace : List (Event Statement Store)} (hchained : Chained execution start trace store)
    (hkept : ∀ event ∈ trace, holds event.found → holds (event.after execution))
    (hstart : holds start) : holds store := by
  induction trace generalizing store with
  | nil =>
      rw [Chained] at hchained
      rw [hchained]
      exact hstart
  | cons event earlier ih =>
      obtain ⟨rfl, hearlier⟩ := hchained
      exact hkept event List.mem_cons_self
        (ih hearlier fun other hother => hkept other (List.mem_cons_of_mem _ hother))

/-- The last event before which a property, which holds at the end, did not hold. -/
theorem exists_beginning (holds : Store → Prop) {start store : Store}
    {trace : List (Event Statement Store)} (hchained : Chained execution start trace store)
    (hstart : ¬holds start) (hstore : holds store) :
    ∃ since event before, trace = since ++ event :: before ∧ ¬holds event.found ∧
      holds (event.after execution) ∧ ∀ later ∈ since, holds later.found := by
  induction trace generalizing store with
  | nil =>
      rw [Chained] at hchained
      rw [hchained] at hstore
      exact absurd hstore hstart
  | cons latest earlier ih =>
      obtain ⟨hafter, hearlier⟩ := hchained
      by_cases hfound : holds latest.found
      · obtain ⟨since, event, before, rfl, hnot, hevent, hsince⟩ := ih hearlier hfound
        refine ⟨latest :: since, event, before, rfl, hnot, hevent, fun later hlater => ?_⟩
        rcases List.mem_cons.mp hlater with rfl | hlater
        · exact hfound
        · exact hsince later hlater
      · refine ⟨[], latest, earlier, rfl, hfound, ?_, fun later hlater => ?_⟩
        · rw [← hafter]
          exact hstore
        · cases hlater

/-- A step relation between the stores that a trace went through, newest first. -/
theorem isChain_of_chained {Observation : Type*} (observe : Store → Observation)
    (related : Observation → Observation → Prop) {start store : Store}
    {trace : List (Event Statement Store)} (hchained : Chained execution start trace store)
    (hstep : ∀ event ∈ trace,
      related (observe event.found) (observe (event.after execution))) :
    (observe store :: trace.map fun event => observe event.found).IsChain
      fun after before => related before after := by
  induction trace generalizing store with
  | nil => exact List.isChain_singleton _
  | cons event earlier ih =>
      obtain ⟨rfl, hearlier⟩ := hchained
      rw [List.map_cons, List.isChain_cons_cons]
      exact ⟨hstep event List.mem_cons_self,
        ih hearlier fun other hother => hstep other (List.mem_cons_of_mem _ hother)⟩

/-! ## What is left of a program -/

/-- The program that is left after its statements found the stores of `events`,
newest first. -/
inductive Leads (execution : Execution Reply Store) (program : Program Reply Error Value) :
    List (Event Statement Store) → Program Reply Error Value → Prop
  | start : Leads execution program [] program
  | step {events : List (Event Statement Store)} {statement : Statement}
      {next : Reply statement → Program Reply Error Value} (process : ℕ) (found : Store)
      (hearlier : Leads execution program events (.step statement next)) :
      Leads execution program (⟨process, statement, found⟩ :: events)
        (next (execution statement found).1)

namespace Leads

variable {rest : Program Reply Error Value} {events : List (Event Statement Store)}

theorem of_done {value : Value} (hleads : Leads execution (.done value) events rest) :
    events = [] ∧ rest = .done value := by
  induction hleads with
  | start => exact ⟨rfl, rfl⟩
  | step process found hearlier ih => cases ih.2

theorem of_fail {error : Error} (hleads : Leads execution (.fail error) events rest) :
    events = [] ∧ rest = .fail error := by
  induction hleads with
  | start => exact ⟨rfl, rfl⟩
  | step process found hearlier ih => cases ih.2

/-- A program that begins with a statement has not begun, or has executed it first. -/
theorem of_step {statement : Statement} {next : Reply statement → Program Reply Error Value}
    (hleads : Leads execution (.step statement next) events rest) :
    events = [] ∧ rest = .step statement next ∨
      ∃ later process found, events = later ++ [⟨process, statement, found⟩] ∧
        Leads execution (next (execution statement found).1) later rest := by
  induction hleads with
  | start => exact Or.inl ⟨rfl, rfl⟩
  | step process found hearlier ih =>
      rcases ih with ⟨rfl, hrest⟩ | ⟨later, first, firstFound, rfl, hlater⟩
      · cases hrest
        exact Or.inr ⟨[], process, found, rfl, Leads.start⟩
      · exact Or.inr ⟨_ :: later, first, firstFound, rfl, hlater.step process found⟩

/-- A program executes only the statements that it may. -/
theorem within {allowed : Statement → Prop} {program : Program Reply Error Value}
    (hleads : Leads execution program events rest) (hprogram : program.Within allowed) :
    (∀ event ∈ events, allowed event.statement) ∧ rest.Within allowed := by
  induction hleads with
  | start => exact ⟨fun event hevent => absurd hevent List.not_mem_nil, hprogram⟩
  | step process found hearlier ih =>
      obtain ⟨hevents, hstatement, hnext⟩ := ih
      refine ⟨fun event hevent => ?_, hnext _⟩
      rcases List.mem_cons.mp hevent with rfl | hevent
      · exact hstatement
      · exact hevents event hevent

end Leads

/-! ## The calls of a pool -/

namespace Pool

variable {body : Call → Program Reply Error Value}
variable {schedule : Schedule Call Reply Store Error Value}

/-- Every event belongs to a call, and every call has been led by its events. -/
structure Led (execution : Execution Reply Store) (body : Call → Program Reply Error Value)
    (pool : Pool Call Reply Store Error Value) : Prop where
  known : ∀ event ∈ pool.history.trace, event.process < pool.processes.length
  leads : ∀ index process, pool.processes[index]? = some process →
    Leads execution (body process.call) (pool.history.own index) process.rest

theorem Led.step {pool after : Pool Call Reply Store Error Value} (hled : Led execution body pool)
    (hstep : Step execution body schedule pool after) : Led execution body after := by
  cases hstep with
  | start call hstarts =>
      refine ⟨fun event hevent => ?_, fun index process hprocess => ?_⟩
      · have hknown := hled.known event hevent
        rw [start, List.length_append]
        omega
      · rcases getElem?_start_cases hprocess with hold | ⟨rfl, rfl⟩
        · exact hled.leads index process hold
        · have hnone : pool.history.own pool.processes.length = [] := by
            rw [History.own, List.filter_eq_nil_iff]
            intro event hevent
            have hknown := hled.known event hevent
            simp only [decide_eq_true_eq]
            omega
          change Leads execution (body call) (pool.history.own _) (body call)
          rw [hnone]
          exact Leads.start
  | @execute index call statement next hprocess hpermits =>
      refine ⟨fun event hevent => ?_, fun other process hother => ?_⟩
      · rw [Pool.execute, List.length_set]
        rcases List.mem_cons.mp hevent with rfl | hevent
        · exact (List.getElem?_eq_some_iff.mp hprocess).1
        · exact hled.known event hevent
      · rcases getElem?_execute_cases hother with ⟨rfl, rfl⟩ | ⟨hne, hold⟩
        · change Leads execution (body call) ((pool.history.record _ _ _).own _) _
          rw [History.own_record_self]
          exact (hled.leads other _ hprocess).step other pool.history.store
        · change Leads execution (body process.call) ((pool.history.record _ _ _).own _) _
          rw [History.own_record_of_ne execution pool.history statement hne]
          exact hled.leads other process hold

theorem Reaches.led {start : Store} {pool : Pool Call Reply Store Error Value}
    (hreaches : Reaches execution body schedule (idle start) pool) : Led execution body pool :=
  hreaches.invariant (Led execution body) (fun _ _ hled hstep => hled.step hstep)
    ⟨by simp [idle], by simp [idle]⟩

theorem Step.calls {allowed : Call → Prop}
    (hstarts : ∀ pool call, schedule.starts pool call → allowed call)
    {pool after : Pool Call Reply Store Error Value} (hstep : Step execution body schedule pool after)
    (hpool : ∀ (index : ℕ) (process : Process Call Reply Error Value),
      pool.processes[index]? = some process → allowed process.call) (index : ℕ)
    (process : Process Call Reply Error Value) (hprocess : after.processes[index]? = some process) :
    allowed process.call := by
  cases hstep with
  | start call hcall =>
      rcases getElem?_start_cases hprocess with hold | ⟨-, rfl⟩
      · exact hpool index process hold
      · exact hstarts pool call hcall
  | execute hbefore hpermits =>
      have hcalled := hpool _ _ hbefore
      rcases getElem?_execute_cases hprocess with ⟨rfl, rfl⟩ | ⟨-, hold⟩
      · exact hcalled
      · exact hpool index process hold

/-- Every call of a pool was one that the schedule may start. -/
theorem Reaches.calls {allowed : Call → Prop} {start : Store}
    {pool : Pool Call Reply Store Error Value}
    (hreaches : Reaches execution body schedule (idle start) pool)
    (hstarts : ∀ pool call, schedule.starts pool call → allowed call) (index : ℕ)
    (process : Process Call Reply Error Value) (hprocess : pool.processes[index]? = some process) :
    allowed process.call :=
  hreaches.invariant
    (fun pool => ∀ (index : ℕ) (process : Process Call Reply Error Value),
      pool.processes[index]? = some process → allowed process.call)
    (fun _ _ hpool hstep => hstep.calls hstarts hpool) (by simp [idle]) index process hprocess

/-- The schedule permitted every statement of a trace where it was executed. -/
theorem Reaches.permitted (allowed : Statement → Store → Prop) {start : Store}
    {pool : Pool Call Reply Store Error Value}
    (hreaches : Reaches execution body schedule (idle start) pool)
    (hpermits : ∀ index statement history, schedule.permits index statement history →
      allowed statement history.store) :
    ∀ event ∈ pool.history.trace, allowed event.statement event.found := by
  refine hreaches.invariant
    (fun pool => ∀ event ∈ pool.history.trace, allowed event.statement event.found)
    (fun pool after hpool hstep => ?_) (by simp [idle])
  cases hstep with
  | start call hstarts => exact hpool
  | execute hprocess hallowed =>
      intro event hevent
      rcases List.mem_cons.mp hevent with rfl | hevent
      · exact hpermits _ _ _ hallowed
      · exact hpool event hevent

/-- The call of an event, and that the event is one that the call may execute. -/
theorem Led.call_of_event {allowed : Call → Statement → Prop}
    {pool : Pool Call Reply Store Error Value} (hled : Led execution body pool)
    (hbody : ∀ call, (body call).Within (allowed call)) {event : Event Statement Store}
    (hevent : event ∈ pool.history.trace) :
    ∃ process, pool.processes[event.process]? = some process ∧
      allowed process.call event.statement := by
  have hprocess := List.getElem?_eq_getElem (hled.known event hevent)
  have hwithin := (hled.leads event.process _ hprocess).within (hbody _)
  exact ⟨_, hprocess, hwithin.1 event (History.mem_own.mpr ⟨hevent, rfl⟩)⟩

end Pool

end AegisForge.Concurrency
