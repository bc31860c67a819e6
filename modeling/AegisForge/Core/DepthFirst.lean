import Mathlib.Data.List.Perm.Subperm
import AegisForge.Core.Checks
import AegisForge.Core.TopologicalOrder

/-!
# Depth-first orders

A depth-first walk lists each element after its dependencies and fails at an element
that it is still visiting.  It fails exactly if the dependencies have a cycle, so the
bound on its depth changes nothing.
-/

namespace AegisForge.Core.DepthFirst

variable {A Error : Type*} [DecidableEq A] {dependencies : A → List A} {cycle : Error}
variable {known : List A}

/-- Lists an element after its dependencies.  The elements that have been visited are
those that are listed. -/
def visit (dependencies : A → List A) (cycle : Error) : ℕ → List A → List A → A →
    Except Error (List A)
  | fuel, visiting, order, element =>
      if element ∈ visiting then .error cycle
      else if element ∈ order then .ok order
      else
        match fuel with
        | 0 => .error cycle
        | fuel + 1 => do
            let order ← (dependencies element).foldlM
              (visit dependencies cycle fuel (element :: visiting)) order
            return order ++ [element]

/-- Lists some elements and all that they depend on. -/
def walk (dependencies : A → List A) (cycle : Error) (elements : List A) :
    Except Error (List A) :=
  elements.foldlM (visit dependencies cycle elements.length []) []

/-! ## What a walk lists -/

/-- An order that a walk may have reached while it visits some elements. -/
structure Reached (dependencies : A → List A) (known visiting order : List A) : Prop where
  topological : IsTopological dependencies order
  nodup : order.Nodup
  unlisted : ∀ element ∈ visiting, element ∉ order
  known : ∀ element ∈ order, element ∈ known

/-- Some elements are listed in addition to those that were. -/
structure Lists (elements order next : List A) : Prop where
  kept : ∀ element ∈ order, element ∈ next
  listed : ∀ element ∈ elements, element ∈ next

variable {fuel : ℕ} {visiting order next elements : List A} {element : A}

omit [DecidableEq A] in
theorem Reached.enter (hreached : Reached dependencies known visiting order)
    (hunlisted : element ∉ order) : Reached dependencies known (element :: visiting) order where
  topological := hreached.topological
  nodup := hreached.nodup
  unlisted := by
    intro visited hvisited
    rcases List.mem_cons.mp hvisited with rfl | hold
    · exact hunlisted
    · exact hreached.unlisted visited hold
  known := hreached.known

omit [DecidableEq A] in
theorem Reached.leave (hreached : Reached dependencies known (element :: visiting) order)
    (hvisiting : element ∉ visiting) (hknown : element ∈ known)
    (hlisted : ∀ dependency ∈ dependencies element, dependency ∈ order) :
    Reached dependencies known visiting (order ++ [element]) where
  topological := hreached.topological.concat hlisted
  nodup := by
    have hunlisted := hreached.unlisted element List.mem_cons_self
    exact List.nodup_append.mpr ⟨hreached.nodup, List.nodup_singleton element, by
      intro left hleft right hright
      rw [List.mem_singleton.mp hright]
      exact fun heq => hunlisted (heq ▸ hleft)⟩
  unlisted := by
    intro visited hvisited hmem
    rcases List.mem_append.mp hmem with hold | hlast
    · exact hreached.unlisted visited (List.mem_cons_of_mem _ hvisited) hold
    · exact hvisiting (List.mem_singleton.mp hlast ▸ hvisited)
  known := by
    intro listed hmem
    rcases List.mem_append.mp hmem with hold | hlast
    · exact hreached.known listed hold
    · exact List.mem_singleton.mp hlast ▸ hknown

omit [DecidableEq A] in
/-- A fold of visits lists all its elements if each visit lists its own. -/
theorem reached_of_foldlM {step : List A → A → Except Error (List A)}
    (hvisit : ∀ {order next : List A} {element : A}, element ∈ known →
      Reached dependencies known visiting order → step order element = .ok next →
      Reached dependencies known visiting next ∧ Lists [element] order next)
    (hknown : ∀ element ∈ elements, element ∈ known)
    (hreached : Reached dependencies known visiting order)
    (hok : elements.foldlM step order = .ok next) :
    Reached dependencies known visiting next ∧ Lists elements order next := by
  induction elements generalizing order with
  | nil =>
      obtain rfl := Except.ok.inj hok
      exact ⟨hreached, fun _ hmem => hmem, fun _ hmem => absurd hmem List.not_mem_nil⟩
  | cons first rest ih =>
      rw [List.foldlM_cons] at hok
      obtain ⟨middle, hfirst, hrest⟩ := bind_eq_ok hok
      obtain ⟨hmiddle, hlists⟩ := hvisit (hknown first List.mem_cons_self) hreached hfirst
      obtain ⟨hnext, hlater⟩ := ih
        (fun element hmem => hknown element (List.mem_cons_of_mem _ hmem)) hmiddle hrest
      have hkept : ∀ element ∈ order, element ∈ next := fun element hmem =>
        hlater.kept element (hlists.kept element hmem)
      have hlisted : ∀ element ∈ first :: rest, element ∈ next := by
        intro element hmem
        rcases List.mem_cons.mp hmem with rfl | hmem
        · exact hlater.kept element (hlists.listed element List.mem_cons_self)
        · exact hlater.listed element hmem
      exact ⟨hnext, hkept, hlisted⟩

theorem reached_of_visit
    (hclosed : ∀ element ∈ known, ∀ dependency ∈ dependencies element, dependency ∈ known)
    (hknown : element ∈ known) (hreached : Reached dependencies known visiting order)
    (hok : visit dependencies cycle fuel visiting order element = .ok next) :
    Reached dependencies known visiting next ∧ Lists [element] order next := by
  induction fuel generalizing visiting order next element with
  | zero =>
      rw [visit] at hok
      split at hok
      · cases hok
      split at hok
      case isTrue hlisted =>
        obtain rfl := Except.ok.inj hok
        exact ⟨hreached, fun _ hmem => hmem, by simpa using hlisted⟩
      case isFalse => cases hok
  | succ fuel ih =>
      rw [visit] at hok
      split at hok
      · cases hok
      rename_i hvisiting
      split at hok
      case isTrue hlisted =>
        obtain rfl := Except.ok.inj hok
        exact ⟨hreached, fun _ hmem => hmem, by simpa using hlisted⟩
      case isFalse hunlisted =>
        obtain ⟨middle, hfold, hlast⟩ := bind_eq_ok hok
        obtain rfl := Except.ok.inj hlast
        obtain ⟨hmiddle, hlists⟩ := reached_of_foldlM (fun hknown => ih hknown)
          (hclosed element hknown) (hreached.enter hunlisted) hfold
        have hkept : ∀ listed ∈ order, listed ∈ middle ++ [element] := fun listed hmem =>
          List.mem_append_left _ (hlists.kept listed hmem)
        exact ⟨hmiddle.leave hvisiting hknown hlists.listed, hkept, by simp⟩

/-- A walk lists exactly its elements, each once and after its dependencies. -/
theorem reached_of_walk
    (hclosed : ∀ element ∈ known, ∀ dependency ∈ dependencies element, dependency ∈ known)
    (hok : walk dependencies cycle known = .ok order) :
    IsTopological dependencies order ∧ order.Nodup ∧
      ∀ element, element ∈ order ↔ element ∈ known := by
  have hstart : Reached dependencies known [] [] :=
    ⟨IsTopological.nil, List.nodup_nil, by simp, by simp⟩
  obtain ⟨hreached, hlists⟩ := reached_of_foldlM
    (fun hknown hreached => reached_of_visit hclosed hknown hreached) (fun _ hmem => hmem)
    hstart hok
  exact ⟨hreached.topological, hreached.nodup, fun element =>
    ⟨hreached.known element, hlists.listed element⟩⟩

/-! ## When a walk fails -/

/-- The dependencies have a cycle. -/
def Cyclic (dependencies : A → List A) : Prop :=
  ∃ element, Relation.TransGen (DependsOn dependencies) element element

omit [DecidableEq A] in
theorem cyclic_of_foldlM {step : List A → A → Except Error (List A)} {error : Error}
    (hvisit : ∀ {order : List A} {element : A}, element ∈ elements →
      step order element = .error error → Cyclic dependencies)
    (herror : elements.foldlM step order = .error error) : Cyclic dependencies := by
  induction elements generalizing order with
  | nil => cases herror
  | cons first rest ih =>
      rw [List.foldlM_cons] at herror
      cases hfirst : step order first with
      | error raised =>
          rw [hfirst] at herror
          obtain rfl := Except.error.inj herror
          exact hvisit List.mem_cons_self hfirst
      | ok middle =>
          rw [hfirst] at herror
          exact ih (fun hmem => hvisit (List.mem_cons_of_mem _ hmem)) herror

/-- A visit fails at an element that it came from: the elements that are being visited
lead to the one that is visited next, and with the bound they are all that is known. -/
theorem cyclic_of_visit {error : Error}
    (hclosed : ∀ element ∈ known, ∀ dependency ∈ dependencies element, dependency ∈ known)
    (hknown : element ∈ known) (hvisiting : ∀ visited ∈ visiting, visited ∈ known)
    (hnodup : visiting.Nodup)
    (hleads : ∀ visited ∈ visiting, Relation.TransGen (DependsOn dependencies) visited element)
    (hfuel : known.length ≤ fuel + visiting.length)
    (herror : visit dependencies cycle fuel visiting order element = .error error) :
    Cyclic dependencies := by
  induction fuel generalizing visiting order element error with
  | zero =>
      rw [visit] at herror
      split at herror
      case isTrue hmem => exact ⟨element, hleads element hmem⟩
      case isFalse hnew =>
        have hsubset : element :: visiting ⊆ known := by
          intro visited hmem
          rcases List.mem_cons.mp hmem with rfl | hold
          · exact hknown
          · exact hvisiting visited hold
        have hlength := ((List.nodup_cons.mpr ⟨hnew, hnodup⟩).subperm hsubset).length_le
        rw [List.length_cons] at hlength
        omega
  | succ fuel ih =>
      rw [visit] at herror
      split at herror
      case isTrue hmem => exact ⟨element, hleads element hmem⟩
      case isFalse hnew =>
        split at herror
        · cases herror
        cases hfold : (dependencies element).foldlM
          (visit dependencies cycle fuel (element :: visiting)) order with
        | ok middle =>
            rw [hfold] at herror
            cases herror
        | error raised =>
            refine cyclic_of_foldlM (fun {_ dependency} hmem hvisit => ?_) hfold
            have hstep : DependsOn dependencies element dependency := hmem
            have hleads' : ∀ visited ∈ element :: visiting,
                Relation.TransGen (DependsOn dependencies) visited dependency := by
              intro visited hvisited
              rcases List.mem_cons.mp hvisited with rfl | hold
              · exact .single hstep
              · exact (hleads visited hold).tail hstep
            have hvisiting' : ∀ visited ∈ element :: visiting, visited ∈ known := by
              intro visited hvisited
              rcases List.mem_cons.mp hvisited with rfl | hold
              · exact hknown
              · exact hvisiting visited hold
            have hfuel' : known.length ≤ fuel + (element :: visiting).length := by
              rw [List.length_cons]
              omega
            exact ih (hclosed element hknown dependency hmem) hvisiting'
              (List.nodup_cons.mpr ⟨hnew, hnodup⟩) hleads' hfuel' hvisit

/-- A walk fails exactly if there is a cycle among what it walks. -/
theorem walk_eq_ok_iff
    (hclosed : ∀ element ∈ known, ∀ dependency ∈ dependencies element, dependency ∈ known)
    (houtside : ∀ element, element ∉ known → dependencies element = []) :
    (∃ order, walk dependencies cycle known = .ok order) ↔ ¬Cyclic dependencies := by
  constructor
  · rintro ⟨order, hok⟩ ⟨element, hcycle⟩
    obtain ⟨htopological, -, hmem⟩ := reached_of_walk hclosed hok
    by_cases hknown : element ∈ known
    · exact htopological.acyclic ((hmem element).mpr hknown) hcycle
    · obtain ⟨next, hstep, -⟩ := Relation.TransGen.head'_iff.mp hcycle
      rw [DependsOn, houtside element hknown] at hstep
      exact List.not_mem_nil hstep
  · intro hacyclic
    cases hwalk : walk dependencies cycle known with
    | ok order => exact ⟨order, rfl⟩
    | error raised =>
        exact absurd (cyclic_of_foldlM (fun hmem => cyclic_of_visit hclosed hmem (by simp)
          List.nodup_nil (by simp) (by simp)) hwalk) hacyclic

end AegisForge.Core.DepthFirst
