import Mathlib.Data.List.Induction
import Mathlib.Data.List.Nodup
import Mathlib.Logic.Relation

/-!
# Topological orders

A list in which every element comes after those that it depends on.  Such a list
allows an induction along the dependencies, and what it lists has no cycles.
-/

namespace AegisForge.Core

variable {A : Type*}

/-- The second element is one that the first depends on. -/
def DependsOn (dependencies : A → List A) (element dependency : A) : Prop :=
  dependency ∈ dependencies element

/-- Every element comes after its dependencies. -/
def IsTopological (dependencies : A → List A) (order : List A) : Prop :=
  ∀ before element after, order = before ++ element :: after →
    ∀ dependency ∈ dependencies element, dependency ∈ before

/-- The dependencies of an element lead through some elements to a target. -/
def Reaches (dependencies : A → List A) (through target : A → Prop) (element : A) : Prop :=
  ∃ last, target last ∧
    Relation.TransGen (fun next dependency => through next ∧ dependency ∈ dependencies next)
      element last

theorem reaches_iff {dependencies : A → List A} {through target : A → Prop} {element : A} :
    Reaches dependencies through target element ↔
      through element ∧ ∃ dependency ∈ dependencies element,
        target dependency ∨ Reaches dependencies through target dependency := by
  constructor
  · rintro ⟨last, htarget, hpath⟩
    obtain ⟨dependency, ⟨hthrough, hdependency⟩, hrest⟩ := Relation.TransGen.head'_iff.mp hpath
    rcases Relation.reflTransGen_iff_eq_or_transGen.mp hrest with rfl | hrest
    · exact ⟨hthrough, last, hdependency, .inl htarget⟩
    · exact ⟨hthrough, dependency, hdependency, .inr ⟨last, htarget, hrest⟩⟩
  · rintro ⟨hthrough, dependency, hdependency, htarget | ⟨last, htarget, hrest⟩⟩
    · exact ⟨dependency, htarget, .single ⟨hthrough, hdependency⟩⟩
    · exact ⟨last, htarget, .head ⟨hthrough, hdependency⟩ hrest⟩

namespace IsTopological

variable {dependencies : A → List A} {order : List A}

theorem nil : IsTopological dependencies [] := by
  intro before element after hnil
  simp at hnil

/-- An element may follow once its dependencies are listed. -/
theorem concat {element : A} (horder : IsTopological dependencies order)
    (hlisted : ∀ dependency ∈ dependencies element, dependency ∈ order) :
    IsTopological dependencies (order ++ [element]) := by
  intro before other after hsplit
  rcases List.eq_nil_or_concat after with rfl | ⟨rest, last, rfl⟩
  · obtain ⟨rfl, hother⟩ := List.append_inj' hsplit rfl
    obtain rfl := List.singleton_inj.mp hother
    exact hlisted
  · have hassoc : order ++ [element] = (before ++ other :: rest) ++ [last] := by
      rw [hsplit, List.concat_eq_append, List.append_assoc, List.cons_append]
    obtain ⟨horderSplit, -⟩ := List.append_inj' hassoc rfl
    exact horder before other rest horderSplit

theorem of_append {later : List A} (horder : IsTopological dependencies (order ++ later)) :
    IsTopological dependencies order := by
  rintro before element after rfl
  exact horder before element (after ++ later) (by simp)

/-- The last element depends on those before it. -/
theorem of_concat {element : A} (horder : IsTopological dependencies (order ++ [element])) :
    ∀ dependency ∈ dependencies element, dependency ∈ order :=
  horder order element [] rfl

theorem mem_dependency (horder : IsTopological dependencies order) {element dependency : A}
    (helement : element ∈ order) (hdependency : dependency ∈ dependencies element) :
    dependency ∈ order := by
  obtain ⟨before, after, rfl⟩ := List.append_of_mem helement
  exact List.mem_append_left _ (horder before element after rfl dependency hdependency)

/-- What holds of an element when it holds of its dependencies holds of all. -/
theorem induction {holds : A → Prop} (horder : IsTopological dependencies order)
    (hnext : ∀ element ∈ order, (∀ dependency ∈ dependencies element, holds dependency) →
      holds element) : ∀ element ∈ order, holds element := by
  induction order using List.reverseRecOn with
  | nil => exact fun element helement => absurd helement List.not_mem_nil
  | append_singleton order last ih =>
      have hall := ih horder.of_append fun element helement =>
        hnext element (List.mem_append_left _ helement)
      intro element helement
      rcases List.mem_append.mp helement with hold | hlast
      · exact hall element hold
      · obtain rfl := List.mem_singleton.mp hlast
        exact hnext element helement fun dependency hdependency =>
          hall dependency (horder.of_concat dependency hdependency)

/-- A mark that is set by the marks of the dependencies is on what reaches a target. -/
theorem marked_iff {through target marked : A → Prop} (horder : IsTopological dependencies order)
    (hmarked : ∀ element ∈ order, marked element ↔
      through element ∧ ∃ dependency ∈ dependencies element, target dependency ∨ marked dependency) :
    ∀ element ∈ order, marked element ↔ Reaches dependencies through target element := by
  have hnext : ∀ element ∈ order,
      (∀ dependency ∈ dependencies element,
        (marked dependency ↔ Reaches dependencies through target dependency)) →
      (marked element ↔ Reaches dependencies through target element) := by
    intro element helement ih
    rw [hmarked element helement, reaches_iff]
    apply and_congr_right
    intro _
    apply exists_congr
    intro dependency
    apply and_congr_right
    intro hdependency
    rw [ih dependency hdependency]
  exact horder.induction hnext

variable [DecidableEq A]

theorem idxOf_lt (horder : IsTopological dependencies order) {element dependency : A}
    (helement : element ∈ order) (hdependency : DependsOn dependencies element dependency) :
    order.idxOf dependency < order.idxOf element := by
  obtain ⟨before, after, hsplit, hfirst⟩ : ∃ before after,
      order = before ++ element :: after ∧ element ∉ before := List.eq_append_cons_of_mem helement
  have hbefore := horder before element after hsplit dependency hdependency
  rw [hsplit, List.idxOf_append_of_mem hbefore, List.idxOf_append_of_notMem hfirst,
    List.idxOf_cons_self, Nat.add_zero]
  exact List.idxOf_lt_length_of_mem hbefore

/-- Nothing that is listed depends on itself. -/
theorem acyclic (horder : IsTopological dependencies order) {element : A}
    (helement : element ∈ order) : ¬Relation.TransGen (DependsOn dependencies) element element := by
  have hless : ∀ {first last : A}, Relation.TransGen (DependsOn dependencies) first last →
      first ∈ order → last ∈ order ∧ order.idxOf last < order.idxOf first := by
    intro first last hpath hfirst
    induction hpath with
    | single hstep => exact ⟨horder.mem_dependency hfirst hstep, horder.idxOf_lt hfirst hstep⟩
    | tail _ hstep ih =>
        exact ⟨horder.mem_dependency ih.1 hstep, Nat.lt_trans (horder.idxOf_lt ih.1 hstep) ih.2⟩
  intro hcycle
  exact Nat.lt_irrefl _ (hless hcycle helement).2

end IsTopological

end AegisForge.Core
