import Mathlib.Data.List.Basic

/-!
# Runs of a machine

A machine is a function from a state and an action to the next state.  An
invariant that every permitted action keeps holds after every permitted run.
-/

namespace AegisForge.Core

variable {State Action : Type*} {step : State → Action → State}
variable {permits : State → Action → Prop} {start : State}

/-- The state that the actions lead to. -/
def run (step : State → Action → State) (start : State) (actions : List Action) : State :=
  actions.foldl step start

/-- Every action is permitted in the state in which it is taken. -/
def Permitted (step : State → Action → State) (permits : State → Action → Prop) :
    State → List Action → Prop
  | _, [] => True
  | state, action :: rest =>
      permits state action ∧ Permitted step permits (step state action) rest

instance Permitted.decidable [∀ state action, Decidable (permits state action)] :
    ∀ start actions, Decidable (Permitted step permits start actions)
  | _, [] => .isTrue trivial
  | state, action :: rest =>
      have := Permitted.decidable (step state action) rest
      inferInstanceAs (Decidable (_ ∧ _))

theorem run_append (earlier later : List Action) :
    run step start (earlier ++ later) = run step (run step start earlier) later :=
  List.foldl_append

/-- What every permitted action keeps holds after every permitted run. -/
theorem Permitted.invariant (Invariant : State → Prop) {actions : List Action}
    (hpermitted : Permitted step permits start actions) (hstart : Invariant start)
    (hstep : ∀ state action, Invariant state → permits state action →
      Invariant (step state action)) :
    Invariant (run step start actions) := by
  induction actions generalizing start with
  | nil => exact hstart
  | cons action rest ih =>
      obtain ⟨hpermits, hrest⟩ := hpermitted
      exact ih hrest (hstep start action hstart hpermits)

/-- A run is no longer than what each permitted action takes one from. -/
theorem Permitted.length_add_le (Invariant : State → Prop) (measure : State → ℕ)
    {actions : List Action} (hpermitted : Permitted step permits start actions)
    (hstart : Invariant start)
    (hstep : ∀ state action, Invariant state → permits state action →
      Invariant (step state action))
    (hless : ∀ state action, Invariant state → permits state action →
      measure (step state action) < measure state) :
    actions.length + measure (run step start actions) ≤ measure start := by
  induction actions generalizing start with
  | nil => exact Nat.le_of_eq (Nat.zero_add _)
  | cons action rest ih =>
      obtain ⟨hpermits, hrest⟩ := hpermitted
      have hrun := ih hrest (hstep start action hstart hpermits)
      have hfirst := hless start action hstart hpermits
      rw [List.length_cons]
      calc rest.length + 1 + measure (run step (step start action) rest)
          = rest.length + measure (run step (step start action) rest) + 1 := by omega
        _ ≤ measure (step start action) + 1 := Nat.add_le_add_right hrun 1
        _ ≤ measure start := hfirst

theorem permitted_of_forall (hpermits : ∀ state action, permits state action)
    (actions : List Action) : Permitted step permits start actions := by
  induction actions generalizing start with
  | nil => trivial
  | cons action rest ih => exact ⟨hpermits start action, ih⟩

theorem run_invariant {Invariant : State → Prop} (hstart : Invariant start)
    (hstep : ∀ state action, Invariant state → Invariant (step state action))
    (actions : List Action) : Invariant (run step start actions) := by
  have hpermitted : Permitted step (fun _ _ => True) start actions :=
    permitted_of_forall (fun _ _ => trivial) actions
  exact hpermitted.invariant Invariant hstart fun state action hstate _ => hstep state action hstate

end AegisForge.Core
