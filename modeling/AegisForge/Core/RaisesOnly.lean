import AegisForge.Core.Checks

/-!
# Errors that a computation may raise

A verifier fails closed when each error it raises is of a kind that its callers
catch.  Whether it does is read off the sequence of its checks: a check that
raises an allowed error leaves the question to what comes after it.
-/

namespace AegisForge.Core

universe u v

variable {Error : Type u} {A B : Type v} {Allowed : Error → Prop}

/-- Every error that the computation raises is allowed. -/
def RaisesOnly (Allowed : Error → Prop) (computation : Except Error A) : Prop :=
  ∀ error, computation = .error error → Allowed error

@[simp]
theorem raisesOnly_ok (value : A) : RaisesOnly Allowed (.ok value : Except Error A) := by
  intro _ herror
  cases herror

@[simp]
theorem raisesOnly_pure (value : A) : RaisesOnly Allowed (pure value : Except Error A) :=
  raisesOnly_ok value

@[simp]
theorem raisesOnly_error_iff {error : Error} :
    RaisesOnly Allowed (.error error : Except Error A) ↔ Allowed error := by
  constructor
  · exact fun honly => honly error rfl
  · intro hallowed raised hraised
    exact Except.error.inj hraised ▸ hallowed

/-- A sequence raises what its first part does, or its second part after a value. -/
theorem raisesOnly_bind_iff {computation : Except Error A} {rest : A → Except Error B} :
    RaisesOnly Allowed (computation >>= rest) ↔
      RaisesOnly Allowed computation ∧
        ∀ value, computation = .ok value → RaisesOnly Allowed (rest value) := by
  cases computation with
  | error error =>
      change RaisesOnly Allowed (.error error) ↔ _
      simp
  | ok value =>
      change RaisesOnly Allowed (rest value) ↔ _
      simp

/-- A part that raises allowed errors only leaves the question to the rest. -/
theorem RaisesOnly.bind_iff {computation : Except Error A} {rest : A → Except Error B}
    (honly : RaisesOnly Allowed computation) :
    RaisesOnly Allowed (computation >>= rest) ↔
      ∀ value, computation = .ok value → RaisesOnly Allowed (rest value) := by
  rw [raisesOnly_bind_iff, and_iff_right honly]

/-- Where the rest raises allowed errors only, the first part decides. -/
theorem raisesOnly_bind_iff_of_rest {computation : Except Error A} {rest : A → Except Error B}
    (hrest : ∀ value, RaisesOnly Allowed (rest value)) :
    RaisesOnly Allowed (computation >>= rest) ↔ RaisesOnly Allowed computation := by
  rw [raisesOnly_bind_iff, and_iff_left fun value _ => hrest value]

theorem RaisesOnly.bind {computation : Except Error A} {rest : A → Except Error B}
    (honly : RaisesOnly Allowed computation)
    (hrest : ∀ value, computation = .ok value → RaisesOnly Allowed (rest value)) :
    RaisesOnly Allowed (computation >>= rest) :=
  honly.bind_iff.mpr hrest

theorem raisesOnly_raiseUnless {condition : Prop} [Decidable condition] {error : Error}
    (hallowed : Allowed error) : RaisesOnly Allowed (raiseUnless condition error) := by
  rw [raiseUnless]
  split
  · exact raisesOnly_ok _
  · exact raisesOnly_error_iff.mpr hallowed

theorem raisesOnly_orRaise {error : Error} {found : Option A} (hallowed : Allowed error) :
    RaisesOnly Allowed (orRaise error found) := by
  cases found with
  | none => exact raisesOnly_error_iff.mpr hallowed
  | some value => exact raisesOnly_ok value

theorem raisesOnly_raiseUnless_bind_iff {condition : Prop} [Decidable condition]
    {error : Error} {rest : PUnit → Except Error B} (hallowed : Allowed error) :
    RaisesOnly Allowed (raiseUnless condition error >>= rest) ↔
      (condition → RaisesOnly Allowed (rest ⟨⟩)) := by
  rw [(raisesOnly_raiseUnless hallowed).bind_iff]
  constructor
  · intro hrest hcondition
    exact hrest ⟨⟩ (if_pos hcondition)
  · intro hrest _ hchecked
    exact hrest (raiseUnless_eq_ok hchecked)

/-- A check whose error is not allowed must not fail. -/
theorem raisesOnly_raiseUnless_iff {condition : Prop} [Decidable condition] {error : Error}
    (hforbidden : ¬Allowed error) :
    RaisesOnly Allowed (raiseUnless condition error) ↔ condition := by
  rw [raiseUnless]
  split
  case isTrue hcondition => exact iff_of_true (raisesOnly_ok _) hcondition
  case isFalse hcondition =>
      exact iff_of_false (fun honly => hforbidden (raisesOnly_error_iff.mp honly)) hcondition

theorem raisesOnly_orRaise_bind_iff {error : Error} {found : Option A}
    {rest : A → Except Error B} (hallowed : Allowed error) :
    RaisesOnly Allowed (orRaise error found >>= rest) ↔
      ∀ value, found = some value → RaisesOnly Allowed (rest value) := by
  rw [(raisesOnly_orRaise hallowed).bind_iff]
  constructor
  · rintro hrest value rfl
    exact hrest value rfl
  · intro hrest value hfound
    exact hrest value (orRaise_eq_ok hfound)

/-- Where the error is not allowed, the value must be there. -/
theorem raisesOnly_orRaise_bind_iff_isSome {error : Error} {found : Option A}
    {rest : A → Except Error B} (hforbidden : ¬Allowed error) :
    RaisesOnly Allowed (orRaise error found >>= rest) ↔
      found.isSome = true ∧ ∀ value, found = some value → RaisesOnly Allowed (rest value) := by
  cases found with
  | none =>
      change RaisesOnly Allowed (.error error) ↔ _
      simp [hforbidden]
  | some value =>
      change RaisesOnly Allowed (rest value) ↔ _
      simp

/-! ## Lists of checks -/

section Lists

variable {Item : Type v} {check : Item → Except Error PUnit} {items : List Item}

theorem raisesOnly_forM (honly : ∀ item ∈ items, RaisesOnly Allowed (check item)) :
    RaisesOnly Allowed (items.forM check) := by
  induction items with
  | nil => exact raisesOnly_pure _
  | cons item rest ih =>
      obtain ⟨hitem, hrest⟩ := List.forall_mem_cons.mp honly
      exact hitem.bind fun _ _ => ih hrest

/-- A list of checks returns exactly if each of them does. -/
theorem forM_eq_ok_iff : items.forM check = .ok ⟨⟩ ↔ ∀ item ∈ items, check item = .ok ⟨⟩ := by
  induction items with
  | nil => simp [pure, Except.pure]
  | cons item rest ih =>
      change (check item >>= fun _ => rest.forM check) = .ok ⟨⟩ ↔ _
      rw [bind_eq_ok_iff, List.forall_mem_cons, ← ih]
      constructor
      · rintro ⟨_, hitem, hrest⟩
        exact ⟨hitem, hrest⟩
      · rintro ⟨hitem, hrest⟩
        exact ⟨_, hitem, hrest⟩

end Lists

/-- A comprehension raises at its first item that raises. -/
theorem raisesOnly_mapM_iff {Item : Type v} {convert : Item → Except Error B}
    {items : List Item} :
    RaisesOnly Allowed (items.mapM convert) ↔
      ∀ before item after, items = before ++ item :: after →
        (∀ earlier ∈ before, ∃ value, convert earlier = .ok value) →
          RaisesOnly Allowed (convert item) := by
  induction items with
  | nil => simp
  | cons first rest ih =>
      rw [List.mapM_cons, raisesOnly_bind_iff]
      have hrest : ∀ value, RaisesOnly Allowed
          (List.mapM convert rest >>= fun others => pure (value :: others)) ↔
            RaisesOnly Allowed (rest.mapM convert) := by
        intro value
        rw [raisesOnly_bind_iff]
        exact and_iff_left fun others _ => raisesOnly_pure _
      simp only [hrest, ih]
      constructor
      · rintro ⟨hfirst, hothers⟩ before item after hsplit hbefore
        cases before with
        | nil =>
            obtain ⟨rfl, -⟩ := List.cons.inj hsplit
            exact hfirst
        | cons earlier before =>
            obtain ⟨rfl, rfl⟩ := List.cons.inj hsplit
            obtain ⟨value, hvalue⟩ := hbefore first List.mem_cons_self
            exact hothers value hvalue before item after rfl fun other hother =>
              hbefore other (List.mem_cons_of_mem first hother)
      · intro hitems
        refine ⟨hitems [] first rest rfl fun _ hmem => absurd hmem List.not_mem_nil, ?_⟩
        intro value hvalue before item after hsplit hbefore
        refine hitems (first :: before) item after (hsplit ▸ rfl) fun earlier hearlier => ?_
        rcases List.mem_cons.mp hearlier with rfl | hmem
        · exact ⟨value, hvalue⟩
        · exact hbefore earlier hmem

/-- A comprehension that returns converted every item. -/
theorem exists_of_mapM_eq_ok {Item : Type v} {convert : Item → Except Error B}
    {items : List Item} {values : List B} (hvalues : items.mapM convert = .ok values) :
    ∀ item ∈ items, ∃ value, convert item = .ok value := by
  induction items generalizing values with
  | nil => exact fun _ hmem => absurd hmem List.not_mem_nil
  | cons first rest ih =>
      rw [List.mapM_cons] at hvalues
      obtain ⟨value, hfirst, hothers⟩ := bind_eq_ok hvalues
      obtain ⟨others, hrest, -⟩ := bind_eq_ok hothers
      exact List.forall_mem_cons.mpr ⟨⟨value, hfirst⟩, ih hrest⟩

theorem exists_mapM_eq_ok_iff {Item : Type v} {convert : Item → Except Error B}
    {items : List Item} :
    (∃ values, items.mapM convert = .ok values) ↔
      ∀ item ∈ items, ∃ value, convert item = .ok value := by
  constructor
  · rintro ⟨values, hvalues⟩
    exact exists_of_mapM_eq_ok hvalues
  · intro hitems
    induction items with
    | nil => exact ⟨[], rfl⟩
    | cons first rest ih =>
        obtain ⟨⟨value, hfirst⟩, hothers⟩ := List.forall_mem_cons.mp hitems
        obtain ⟨values, hrest⟩ := ih hothers
        refine ⟨value :: values, ?_⟩
        rw [List.mapM_cons]
        exact bind_eq_ok_iff.mpr ⟨value, hfirst, bind_eq_ok_iff.mpr ⟨values, hrest, rfl⟩⟩

end AegisForge.Core
