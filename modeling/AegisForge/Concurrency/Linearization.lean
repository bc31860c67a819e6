import Mathlib.Data.List.Nodup
import AegisForge.Concurrency.Pool

/-!
# Linearization

A view of the store changes only at writing statements.  When every call that
returned wrote exactly once, with the effect the call has when it runs alone,
or wrote nothing and had nothing to change, the final view is the effect of
the returned calls one after the other.
-/

namespace AegisForge.Concurrency

universe u

variable {Statement Call Store Error Value State : Type u} {Reply : Statement → Type u}

/-- The effects of calls one after the other, if each has one. -/
def effects (effect : Call → State → Option State) (calls : List Call) (state : State) :
    Option State :=
  calls.foldlM (fun state call => effect call state) state

theorem effects_append (effect : Call → State → Option State) (first second : List Call)
    (state : State) :
    effects effect (first ++ second) state =
      (effects effect first state).bind (effects effect second) :=
  List.foldlM_append

namespace Pool

def hasReturned (pool : Pool Call Reply Store Error Value) (index : ℕ) : Bool :=
  match pool.processes[index]? with
  | some ⟨_, .done _⟩ => true
  | _ => false

/-- The calls that returned normally, in the order in which they were made. -/
def returned (pool : Pool Call Reply Store Error Value) : List ℕ :=
  (List.range pool.processes.length).filter pool.hasReturned

/-- Every call has returned or raised. -/
def Finished (pool : Pool Call Reply Store Error Value) : Prop :=
  ∀ process ∈ pool.processes, process.rest.isFinished = true

instance (pool : Pool Call Reply Store Error Value) : Decidable pool.Finished :=
  inferInstanceAs (Decidable (∀ process ∈ pool.processes, process.rest.isFinished = true))

theorem mem_returned {pool : Pool Call Reply Store Error Value} {index : ℕ} :
    index ∈ pool.returned ↔ pool.hasReturned index = true := by
  rw [returned, List.mem_filter, List.mem_range]
  refine ⟨And.right, fun hreturned => ⟨?_, hreturned⟩⟩
  rw [hasReturned] at hreturned
  split at hreturned
  case h_1 hprocess => exact (List.getElem?_eq_some_iff.mp hprocess).1
  case h_2 => cases hreturned

theorem hasReturned_iff {pool : Pool Call Reply Store Error Value} {index : ℕ} :
    pool.hasReturned index = true ↔
      ∃ call value, pool.processes[index]? = some ⟨call, .done value⟩ := by
  rw [hasReturned]
  split
  case h_1 call value hprocess => exact ⟨fun _ => ⟨call, value, hprocess⟩, fun _ => rfl⟩
  case h_2 hother =>
    refine ⟨fun hfalse => (Bool.false_ne_true hfalse).elim, ?_⟩
    rintro ⟨call, value, hprocess⟩
    exact absurd hprocess (hother call value)

/-- In a finished pool, an index that did not return was never given to a call
or belongs to a call that raised. -/
theorem finished_cases {pool : Pool Call Reply Store Error Value} (hfinished : pool.Finished)
    {index : ℕ} (hreturned : pool.hasReturned index = false) :
    pool.processes.length ≤ index ∨
      ∃ call error, pool.processes[index]? = some ⟨call, .fail error⟩ := by
  cases hprocess : pool.processes[index]? with
  | none => exact Or.inl (List.getElem?_eq_none_iff.mp hprocess)
  | some process =>
      obtain ⟨call, rest⟩ := process
      have hrest := hfinished _ (List.mem_of_getElem? hprocess)
      cases rest with
      | done value =>
          rw [hasReturned_iff.mpr ⟨call, value, hprocess⟩] at hreturned
          cases hreturned
      | fail error => exact Or.inr ⟨call, error, rfl⟩
      | step statement next => cases hrest

theorem nodup_returned (pool : Pool Call Reply Store Error Value) :
    pool.returned.Nodup :=
  List.nodup_range.filter _

theorem map_some_calls {pool : Pool Call Reply Store Error Value}
    {order : List (ℕ × Call)} (hcalls : ∀ pair ∈ order, pool.call? pair.1 = some pair.2) :
    (order.map Prod.snd).map some = (order.map Prod.fst).map pool.call? := by
  rw [List.map_map, List.map_map]
  exact List.map_congr_left fun pair hpair => (hcalls pair hpair).symm

/-- `order` lists the returned calls, and their effects lead to the view. -/
structure Linearization (effect : Call → State → Option State) (view : Store → State)
    (start : Store) (pool : Pool Call Reply Store Error Value)
    (order : List (ℕ × Call)) : Prop where
  returned : (order.map Prod.fst).Perm pool.returned
  calls : ∀ pair ∈ order, pool.call? pair.1 = some pair.2
  effects : effects effect (order.map Prod.snd) (view start) = some (view pool.history.store)

variable {execution : Execution Reply Store} {view : Store → State}
variable {effect : Call → State → Option State} {writes : Event Statement Store → Bool}
variable {pool : Pool Call Reply Store Error Value} {start : Store}

/-- The writers in the order of their writes lead to the view. -/
theorem exists_writers (pool : Pool Call Reply Store Error Value)
    (effect : Call → State → Option State)
    {trace : List (Event Statement Store)} {store : Store}
    (hchained : Chained execution start trace store)
    (hquiet : ∀ event ∈ trace, writes event = false →
      view (event.after execution) = view event.found)
    (hwrites : ∀ event ∈ trace, writes event = true →
      ∃ call, pool.call? event.process = some call ∧
        effect call (view event.found) = some (view (event.after execution))) :
    ∃ order : List (ℕ × Call),
      order.map Prod.fst = ((trace.filter writes).map Event.process).reverse ∧
        (∀ pair ∈ order, pool.call? pair.1 = some pair.2) ∧
          effects effect (order.map Prod.snd) (view start) = some (view store) := by
  induction trace generalizing store with
  | nil =>
      cases hchained
      exact ⟨[], rfl, by simp, rfl⟩
  | cons event earlier ih =>
      obtain ⟨rfl, hearlier⟩ := hchained
      obtain ⟨order, horder, hcalls, heffects⟩ := ih hearlier
        (fun other hother => hquiet other (List.mem_cons_of_mem _ hother))
        (fun other hother => hwrites other (List.mem_cons_of_mem _ hother))
      cases hevent : writes event with
      | false =>
          refine ⟨order, by simp [hevent, horder], hcalls, ?_⟩
          rw [heffects, hquiet event List.mem_cons_self hevent]
      | true =>
          obtain ⟨call, hcall, heffect⟩ := hwrites event List.mem_cons_self hevent
          refine ⟨order ++ [(event.process, call)], by simp [hevent, horder],
            fun pair hpair => ?_, ?_⟩
          · rcases List.mem_append.mp hpair with hold | hnew
            · exact hcalls pair hold
            · rw [List.mem_singleton.mp hnew]
              exact hcall
          · rw [List.map_append, effects_append, heffects]
            simp [effects, heffect]

/-- Calls without an effect can be appended in any order. -/
theorem exists_idle (pool : Pool Call Reply Store Error Value)
    (effect : Call → State → Option State) {indices : List ℕ} {state : State}
    (hidle : ∀ index ∈ indices, ∃ call, pool.call? index = some call ∧
      effect call state = some state) :
    ∃ order : List (ℕ × Call), order.map Prod.fst = indices ∧
      (∀ pair ∈ order, pool.call? pair.1 = some pair.2) ∧
        effects effect (order.map Prod.snd) state = some state := by
  induction indices with
  | nil => exact ⟨[], rfl, by simp, rfl⟩
  | cons index indices ih =>
      obtain ⟨order, horder, hcalls, heffects⟩ :=
        ih fun other hother => hidle other (List.mem_cons_of_mem _ hother)
      obtain ⟨call, hcall, heffect⟩ := hidle index List.mem_cons_self
      refine ⟨(index, call) :: order, by simp [horder], fun pair hpair => ?_, ?_⟩
      · rcases List.mem_cons.mp hpair with rfl | hold
        · exact hcall
        · exact hcalls pair hold
      · rw [effects] at heffects ⊢
        simp [heffect, heffects]

private theorem count_writers (index : ℕ) :
    (((pool.history.trace.filter writes).map Event.process).reverse).count index =
      ((pool.history.own index).filter writes).length := by
  rw [List.count_reverse, List.count_eq_countP, List.countP_map, List.countP_eq_length_filter,
    History.own, List.filter_filter, List.filter_filter]
  congr 2
  funext event
  simp only [Function.comp_apply, beq_eq_decide]
  exact Bool.and_comm _ _

/-- Every call that returned wrote once with its effect or had nothing to
change, and no other call wrote: then the returned calls linearize. -/
theorem exists_linearization (view : Store → State)
    (effect : Call → State → Option State) (writes : Event Statement Store → Bool)
    (hchained : Chained execution start pool.history.trace pool.history.store)
    (hquiet : ∀ event ∈ pool.history.trace, writes event = false →
      view (event.after execution) = view event.found)
    (hreturned : ∀ index, pool.hasReturned index = true →
      ∃ call, pool.call? index = some call ∧
        ((∃ event, (pool.history.own index).filter writes = [event] ∧
            effect call (view event.found) = some (view (event.after execution))) ∨
          ((pool.history.own index).filter writes = [] ∧
            effect call (view pool.history.store) = some (view pool.history.store))))
    (hothers : ∀ index, pool.hasReturned index = false →
      (pool.history.own index).filter writes = []) :
    ∃ order, Linearization effect view start pool order := by
  let idle := pool.returned.filter fun index =>
    ((pool.history.own index).filter writes).isEmpty
  obtain ⟨writers, hwriters, hwriterCalls, hwriterEffects⟩ :=
    exists_writers pool effect hchained hquiet (by
      intro event hevent hwrites
      have hown : event ∈ (pool.history.own event.process).filter writes := by
        simp [History.mem_own, hevent, hwrites]
      cases hdone : pool.hasReturned event.process with
      | false =>
          rw [hothers _ hdone] at hown
          cases hown
      | true =>
          obtain ⟨call, hcall, ⟨only, honly, heffect⟩ | ⟨hnone, -⟩⟩ := hreturned _ hdone
          · rw [honly, List.mem_singleton] at hown
            exact ⟨call, hcall, hown ▸ heffect⟩
          · rw [hnone] at hown
            cases hown)
  obtain ⟨idlers, hidlers, hidlerCalls, hidlerEffects⟩ :=
    exists_idle pool effect (show ∀ index ∈ idle, ∃ call, pool.call? index = some call ∧
        effect call (view pool.history.store) = some (view pool.history.store) from by
      intro index hindex
      obtain ⟨hmem, hempty⟩ := List.mem_filter.mp hindex
      obtain ⟨call, hcall, ⟨only, honly, -⟩ | ⟨-, heffect⟩⟩ :=
        hreturned index (mem_returned.mp hmem)
      · rw [honly] at hempty
        cases hempty
      · exact ⟨call, hcall, heffect⟩)
  refine ⟨writers ++ idlers, ?_, fun pair hpair => ?_, ?_⟩
  · rw [List.map_append, hwriters, hidlers, List.perm_iff_count]
    intro index
    rw [List.count_append, count_writers]
    cases hdone : pool.hasReturned index with
    | false =>
        have hmem : index ∉ pool.returned := by simp [mem_returned, hdone]
        have hidle : index ∉ idle := fun h => hmem (List.mem_filter.mp h).1
        rw [hothers index hdone, List.count_eq_zero.mpr hmem, List.count_eq_zero.mpr hidle]
        rfl
    | true =>
        have hmem : index ∈ pool.returned := mem_returned.mpr hdone
        rw [List.count_eq_one_of_mem pool.nodup_returned hmem]
        obtain ⟨-, -, ⟨only, honly, -⟩ | ⟨hnone, -⟩⟩ := hreturned index hdone
        · have hidle : index ∉ idle := fun h => by
            have hempty := (List.mem_filter.mp h).2
            rw [honly] at hempty
            cases hempty
          rw [honly, List.count_eq_zero.mpr hidle]
          rfl
        · have hidle : index ∈ idle := List.mem_filter.mpr ⟨hmem, by rw [hnone]; rfl⟩
          rw [hnone, List.count_eq_one_of_mem (pool.nodup_returned.filter _) hidle]
          rfl
  · rcases List.mem_append.mp hpair with hwriter | hidler
    · exact hwriterCalls pair hwriter
    · exact hidlerCalls pair hidler
  · rw [List.map_append, effects_append, hwriterEffects]
    exact hidlerEffects

end Pool

end AegisForge.Concurrency
