import Mathlib.Logic.Relation
import Mathlib.Data.List.Basic

/-!
# Chains of parents

Every element has at most one parent.  A walk follows the parents of an element until a
root or an element that an earlier walk has finished, and finds a cycle when it comes
back to its own path.  Whether walks find cycles is whether all chains end in roots.  A
search for the first answer along a chain takes no more steps than there are elements
with a parent.
-/

namespace AegisForge.Core

universe u v

variable {A : Type u} {B : Type v} {parent : A → Option A}

/-- The chain of parents of an element ends in a root. -/
inductive ReachesRoot (parent : A → Option A) : A → Prop
  | root {element : A} (hroot : parent element = none) : ReachesRoot parent element
  | parent {element above : A} (hparent : parent element = some above)
      (habove : ReachesRoot parent above) : ReachesRoot parent element

/-- The one element is the parent of the other. -/
def IsParentOf (parent : A → Option A) (element above : A) : Prop := parent element = some above

theorem ReachesRoot.above {element above : A} (hreaches : ReachesRoot parent element)
    (hparent : parent element = some above) : ReachesRoot parent above := by
  cases hreaches with
  | root hroot => cases hroot.symm.trans hparent
  | parent hother habove =>
      obtain rfl := Option.some.inj (hother.symm.trans hparent)
      exact habove

/-- An element whose chain ends is no ancestor of itself. -/
theorem ReachesRoot.not_ancestor {element : A} (hreaches : ReachesRoot parent element) :
    ¬Relation.TransGen (IsParentOf parent) element element := by
  induction hreaches with
  | root hroot =>
      intro hancestor
      obtain ⟨above, hparent, -⟩ := Relation.TransGen.head'_iff.mp hancestor
      cases hroot.symm.trans hparent
  | parent hparent habove ih =>
      intro hancestor
      obtain ⟨above, hfirst, hrest⟩ := Relation.TransGen.head'_iff.mp hancestor
      obtain rfl := Option.some.inj (hparent.symm.trans hfirst)
      exact ih (Relation.TransGen.tail' hrest hfirst)

/-- The chains of two parent functions that a map carries into each other. -/
theorem reachesRoot_map_iff {parent' : B → Option B} (name : A → B) (known : A → Prop)
    (hmap : ∀ element, known element → parent' (name element) = (parent element).map name)
    (hclosed : ∀ element above, known element → parent element = some above → known above)
    {element : A} (hknown : known element) :
    ReachesRoot parent' (name element) ↔ ReachesRoot parent element := by
  constructor
  · intro hreaches
    generalize hname : name element = named at hreaches
    induction hreaches generalizing element with
    | root hroot =>
        subst hname
        rw [hmap element hknown, Option.map_eq_none_iff] at hroot
        exact ReachesRoot.root hroot
    | parent hparent _ ih =>
        subst hname
        rw [hmap element hknown] at hparent
        obtain ⟨above, habove, hnamed⟩ := Option.map_eq_some_iff.mp hparent
        exact ReachesRoot.parent habove (ih (hclosed element above hknown habove) hnamed)
  · intro hreaches
    induction hreaches with
    | root hroot => exact ReachesRoot.root (by rw [hmap _ hknown, hroot, Option.map_none])
    | parent hparent _ ih =>
        refine ReachesRoot.parent ?_ (ih (hclosed _ _ hknown hparent))
        rw [hmap _ hknown, hparent, Option.map_some]

/-! ## Walks -/

/-- A walk with its path so far and the element it is at: what it has walked when it
ends, or nothing when it comes back to its own path. -/
inductive Walks (parent : A → Option A) (finished : List A) :
    List A → Option A → Option (List A) → Prop
  | root {path : List A} : Walks parent finished path none (some path)
  | finished {path : List A} {current : A} (hfinished : current ∈ finished) :
      Walks parent finished path (some current) (some path)
  | cycle {path : List A} {current : A} (hfinished : current ∉ finished)
      (hcycle : current ∈ path) : Walks parent finished path (some current) none
  | step {path : List A} {current : A} {result : Option (List A)}
      (hfinished : current ∉ finished) (hpath : current ∉ path)
      (hrest : Walks parent finished (current :: path) (parent current) result) :
      Walks parent finished path (some current) result

namespace Walks

variable {finished path : List A} {current : Option A}

/-- What is walked before a walk ends stays in its result. -/
theorem path_subset {result : List A}
    (hwalks : Walks parent finished path current (some result)) : path ⊆ result := by
  generalize hended : some result = ended at hwalks
  induction hwalks with
  | root => exact (Option.some.inj hended).symm ▸ List.Subset.refl _
  | finished => exact (Option.some.inj hended).symm ▸ List.Subset.refl _
  | cycle => cases hended
  | step _ _ _ ih => exact fun _ hmem => ih hended (List.mem_cons_of_mem _ hmem)

/-- A walk that ends has walked where it started, unless that was finished. -/
theorem start_mem {start : A} {result : List A}
    (hwalks : Walks parent finished path (some start) (some result)) :
    start ∈ finished ∨ start ∈ result := by
  cases hwalks with
  | finished hfinished => exact Or.inl hfinished
  | step _ _ hrest => exact Or.inr (hrest.path_subset List.mem_cons_self)

/-- When the chains of the finished elements end in roots, and the path's do as soon as
that of the current element does, the chains of all that is walked end in roots. -/
theorem reachesRoot {result : List A}
    (hwalks : Walks parent finished path current (some result))
    (hfinished : ∀ element ∈ finished, ReachesRoot parent element)
    (hpath : (∀ element, current = some element → ReachesRoot parent element) →
      ∀ element ∈ path, ReachesRoot parent element) :
    ∀ element ∈ result, ReachesRoot parent element := by
  generalize hended : some result = ended at hwalks
  induction hwalks with
  | root =>
      obtain rfl := Option.some.inj hended
      exact hpath fun element hnone => absurd hnone (by simp)
  | finished hmem =>
      obtain rfl := Option.some.inj hended
      refine hpath fun element hcurrent => ?_
      obtain rfl := Option.some.inj hcurrent
      exact hfinished _ hmem
  | cycle => cases hended
  | @step path current _ _ _ _ ih =>
      refine ih (fun hparent => ?_) hended
      have hcurrent : ReachesRoot parent current := by
        cases habove : parent current with
        | none => exact ReachesRoot.root habove
        | some above => exact ReachesRoot.parent habove (hparent above habove)
      refine List.forall_mem_cons.mpr ⟨hcurrent, hpath fun element helement => ?_⟩
      exact Option.some.inj helement ▸ hcurrent

/-- A walk along a chain that ends in a root, with the descendants of the current element
as its path, finds no cycle. -/
theorem isSome {ended : Option (List A)} (hwalks : Walks parent finished path current ended)
    (hcurrent : ∀ element, current = some element → ReachesRoot parent element)
    (hpath : ∀ element, current = some element →
      ∀ earlier ∈ path, Relation.TransGen (IsParentOf parent) earlier element) :
    ended.isSome = true := by
  induction hwalks with
  | root => rfl
  | finished => rfl
  | cycle _ hcycle => exact absurd (hpath _ rfl _ hcycle) (hcurrent _ rfl).not_ancestor
  | @step path current _ _ _ _ ih =>
      refine ih (fun above hparent => (hcurrent current rfl).above hparent) ?_
      intro above hparent
      refine List.forall_mem_cons.mpr ⟨Relation.TransGen.single hparent, ?_⟩
      exact fun earlier hearlier => (hpath current rfl earlier hearlier).tail hparent

end Walks

/-! ## Lengths of chains -/

/-- The chain of parents of an element ends within so many steps. -/
def EndsWithin (parent : A → Option A) : ℕ → A → Prop
  | 0, element => parent element = none
  | steps + 1, element => ∀ above, parent element = some above → EndsWithin parent steps above

/-- A chain that ends is no longer than a list of all its elements that have parents. -/
theorem ReachesRoot.endsWithin [DecidableEq A] {element : A} {known : List A}
    (hreaches : ReachesRoot parent element)
    (hknown : ∀ other, Relation.ReflTransGen (IsParentOf parent) element other →
      (parent other).isSome = true → other ∈ known) :
    EndsWithin parent known.length element := by
  induction hreaches generalizing known with
  | root hroot =>
      cases known with
      | nil => exact hroot
      | cons first rest =>
          intro above hparent
          cases hroot.symm.trans hparent
  | @parent element above hparent habove ih =>
      have hmem : element ∈ known :=
        hknown element Relation.ReflTransGen.refl (by rw [hparent, Option.isSome_some])
      have hlength : known.length = (known.erase element).length + 1 := by
        rw [List.length_erase_of_mem hmem]
        have hpos := List.length_pos_of_mem hmem
        omega
      rw [hlength]
      intro other hother
      obtain rfl := Option.some.inj (hparent.symm.trans hother)
      refine ih fun later hlater hsome => ?_
      have hne : later ≠ element := by
        rintro rfl
        exact (ReachesRoot.parent hparent habove).not_ancestor
          (Relation.TransGen.head' hparent hlater)
      exact (List.mem_erase_of_ne hne).mpr
        (hknown later (Relation.ReflTransGen.head hparent hlater) hsome)

/-! ## The first answer along a chain -/

/-- The first answer of an element or of those above it; nothing if the steps run out. -/
def firstAbove (parent : A → Option A) (answer : A → Option B) : ℕ → A → Option (Option B)
  | 0, _ => none
  | steps + 1, element =>
      match answer element with
      | some found => some (some found)
      | none =>
          match parent element with
          | none => some none
          | some above => firstAbove parent answer steps above

/-- The answer is that of the first element of a chain that has one. -/
inductive IsFirstAbove (parent : A → Option A) (answer : A → Option B) : A → B → Prop
  | here {element : A} {found : B} (hanswer : answer element = some found) :
      IsFirstAbove parent answer element found
  | above {element next : A} {found : B} (hnone : answer element = none)
      (hparent : parent element = some next) (hrest : IsFirstAbove parent answer next found) :
      IsFirstAbove parent answer element found

variable {answer : A → Option B} {steps : ℕ} {element : A}

/-- A search with enough steps ends. -/
theorem EndsWithin.exists_firstAbove (hends : EndsWithin parent steps element) :
    ∃ found, firstAbove parent answer (steps + 1) element = some found := by
  induction steps generalizing element with
  | zero =>
      have hroot : parent element = none := hends
      rw [firstAbove, hroot]
      cases answer element with
      | none => exact ⟨none, rfl⟩
      | some found => exact ⟨some found, rfl⟩
  | succ steps ih =>
      rw [firstAbove]
      cases answer element with
      | some found => exact ⟨some found, rfl⟩
      | none =>
          cases hparent : parent element with
          | none => exact ⟨none, rfl⟩
          | some above => exact ih (hends above hparent)

theorem isFirstAbove_of_firstAbove {found : B}
    (hfirst : firstAbove parent answer steps element = some (some found)) :
    IsFirstAbove parent answer element found := by
  induction steps generalizing element with
  | zero => cases hfirst
  | succ steps ih =>
      rw [firstAbove] at hfirst
      cases hanswer : answer element with
      | some other =>
          rw [hanswer] at hfirst
          obtain rfl := Option.some.inj (Option.some.inj hfirst)
          exact IsFirstAbove.here hanswer
      | none =>
          rw [hanswer] at hfirst
          cases hparent : parent element with
          | none =>
              rw [hparent] at hfirst
              cases hfirst
          | some above =>
              rw [hparent] at hfirst
              exact IsFirstAbove.above hanswer hparent (ih hfirst)

/-- A search that ends finds the first answer. -/
theorem firstAbove_of_isFirstAbove {found : B} {result : Option B}
    (hfirst : IsFirstAbove parent answer element found)
    (hresult : firstAbove parent answer steps element = some result) : result = some found := by
  induction hfirst generalizing steps with
  | here hanswer =>
      cases steps with
      | zero => cases hresult
      | succ steps =>
          rw [firstAbove, hanswer] at hresult
          exact (Option.some.inj hresult).symm
  | above hnone hparent _ ih =>
      cases steps with
      | zero => cases hresult
      | succ steps =>
          rw [firstAbove, hnone, hparent] at hresult
          exact ih hresult

end AegisForge.Core
