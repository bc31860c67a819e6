import Mathlib.Data.Nat.Notation

/-!
# Checks that raise

Verifiers are sequences of checks.  What a verifier has checked once it returned
is read off its sequence by the lemmas below.
-/

namespace AegisForge.Core

universe u v

variable {Error : Type u} {A B : Type v}

/-- `if not condition: raise error`. -/
def raiseUnless (condition : Prop) [Decidable condition] (error : Error) :
    Except Error PUnit :=
  if condition then .ok ⟨⟩ else .error error

/-- The value that a check found, or the error for the value that is missing. -/
def orRaise (error : Error) : Option A → Except Error A
  | none => .error error
  | some value => .ok value

/-- What a computation returns, with the fact that it does. -/
def returned : (computation : Except Error A) → Except Error { value // computation = .ok value }
  | .error error => .error error
  | .ok value => .ok ⟨value, rfl⟩

theorem bind_eq_ok {computation : Except Error A} {rest : A → Except Error B} {value : B}
    (hok : computation >>= rest = .ok value) :
    ∃ middle, computation = .ok middle ∧ rest middle = .ok value := by
  cases computation with
  | error error => cases hok
  | ok middle => exact ⟨middle, rfl, hok⟩

theorem raiseUnless_eq_ok {condition : Prop} [Decidable condition] {error : Error}
    {value : PUnit} (hok : raiseUnless condition error = .ok value) : condition := by
  rw [raiseUnless] at hok
  split at hok
  case isTrue hcondition => exact hcondition
  case isFalse => cases hok

/-- A check that was passed, and what came after it. -/
theorem raiseUnless_bind_eq_ok {condition : Prop} [Decidable condition] {error : Error}
    {rest : PUnit → Except Error B} {value : B}
    (hok : raiseUnless condition error >>= rest = .ok value) :
    condition ∧ rest ⟨⟩ = .ok value := by
  obtain ⟨_, hcheck, hrest⟩ := bind_eq_ok hok
  exact ⟨raiseUnless_eq_ok hcheck, hrest⟩

theorem orRaise_eq_ok {error : Error} {found : Option A} {value : A}
    (hok : orRaise error found = .ok value) : found = some value := by
  cases found with
  | none => cases hok
  | some found => exact congrArg some (Except.ok.inj hok)

theorem orRaise_bind_eq_ok {error : Error} {found : Option A} {rest : A → Except Error B}
    {value : B} (hok : orRaise error found >>= rest = .ok value) :
    ∃ middle, found = some middle ∧ rest middle = .ok value := by
  obtain ⟨middle, hfound, hrest⟩ := bind_eq_ok hok
  exact ⟨middle, orRaise_eq_ok hfound, hrest⟩

theorem raiseUnless_bind_eq_ok_iff {condition : Prop} [Decidable condition] {error : Error}
    {rest : PUnit → Except Error B} {value : B} :
    (raiseUnless condition error >>= rest) = .ok value ↔ condition ∧ rest ⟨⟩ = .ok value := by
  constructor
  · exact raiseUnless_bind_eq_ok
  · rintro ⟨hcondition, hrest⟩
    rw [raiseUnless, if_pos hcondition]
    exact hrest

theorem orRaise_bind_eq_ok_iff {error : Error} {found : Option A} {rest : A → Except Error B}
    {value : B} :
    (orRaise error found >>= rest) = .ok value ↔
      ∃ middle, found = some middle ∧ rest middle = .ok value := by
  constructor
  · exact orRaise_bind_eq_ok
  · rintro ⟨middle, rfl, hrest⟩
    exact hrest

theorem bind_eq_ok_iff {computation : Except Error A} {rest : A → Except Error B}
    {value : B} :
    (computation >>= rest) = .ok value ↔
      ∃ middle, computation = .ok middle ∧ rest middle = .ok value := by
  constructor
  · exact bind_eq_ok
  · rintro ⟨middle, rfl, hrest⟩
    exact hrest

theorem eq_ok_of_toOption {computation : Except Error A} {value : A}
    (hvalue : computation.toOption = some value) : computation = .ok value := by
  cases computation with
  | error error => cases hvalue
  | ok value' => exact congrArg Except.ok (Option.some.inj hvalue)

end AegisForge.Core
