import Mathlib.Data.List.Nodup
import AegisForge.Core.TopologicalOrder

/-!
# Worklists

A search takes nodes from a worklist and puts what they lead to back on it.  It stays
within the known nodes, leaves out its source and the nodes that are barred, and notes
whether it met one of these.  It ends on every graph.  If it met no barred node, then
none can be reached, and it has visited what can be reached and is known.
-/

namespace AegisForge.Core.Worklist

variable {Node : Type*} [DecidableEq Node]

/-- The nodes that the search visits, and whether it meets a barred node. -/
def search (known barred : List Node) (origins : Node → List Node) (source : Node) :
    List Node → Bool → List Node → List Node × Bool
  | visited, met, [] => (visited, met)
  | visited, met, origin :: pending =>
      if origin ∈ barred then search known barred origins source visited true pending
      else if origin ∈ visited ∨ origin ∉ known ∨ origin = source then
        search known barred origins source visited met pending
      else
        search known barred origins source (origin :: visited) met
          ((origins origin).reverse ++ pending)
  termination_by visited _ pending =>
    ((known.filter fun node => node ∉ visited).length, pending.length)
  decreasing_by
    · exact Prod.Lex.right _ (by simp)
    · exact Prod.Lex.right _ (by simp)
    · rename_i hskip
      refine Prod.Lex.left _ _ ?_
      obtain ⟨hnew, hknown, -⟩ := not_or.mp hskip |>.imp id not_or.mp
      have hfewer : (known.filter fun node => node ∉ origin :: visited) =
          (known.filter fun node => node ∉ visited).filter fun node => node ≠ origin := by
        rw [List.filter_filter]
        exact List.filter_congr fun node _ => by simp
      rw [hfewer, List.length_filter_lt_length_iff_exists]
      exact ⟨origin, List.mem_filter.mpr ⟨not_not.mp hknown, decide_eq_true hnew⟩, by simp⟩

/-- The search from a source.  The end of a list of origins is the top of the worklist. -/
def searchFrom (known barred : List Node) (origins : Node → List Node) (source : Node) :
    List Node × Bool := search known barred origins source [] false (origins source).reverse

variable {known barred visited pending : List Node} {origins : Node → List Node}
variable {source node : Node} {met : Bool}

/-- The node can be reached from the source. -/
def Reaches (origins : Node → List Node) (source node : Node) : Prop :=
  Relation.TransGen (DependsOn origins) source node

/-- The search is done with a node. -/
def Settled (known barred : List Node) (source : Node) (visited : List Node) (met : Bool)
    (node : Node) : Prop :=
  node ∈ visited ∨ node = source ∨ (node ∈ barred ∧ met = true) ∨ (node ∉ barred ∧ node ∉ known)

/-- What holds while the search runs. -/
structure Searches (known barred : List Node) (origins : Node → List Node) (source : Node)
    (visited : List Node) (met : Bool) (pending : List Node) : Prop where
  nodup : visited.Nodup
  inner : ∀ node ∈ visited, node ∈ known ∧ node ∉ barred ∧ node ≠ source
  reaches : ∀ node ∈ visited, Reaches origins source node
  leads : ∀ node ∈ pending, Reaches origins source node
  meets : met = true → ∃ node ∈ barred, Reaches origins source node
  closed : ∀ node, node = source ∨ node ∈ visited → ∀ origin ∈ origins node,
    Settled known barred source visited met origin ∨ origin ∈ pending

omit [DecidableEq Node] in
theorem searches_start (known barred : List Node) (origins : Node → List Node) (source : Node) :
    Searches known barred origins source [] false (origins source).reverse where
  nodup := List.nodup_nil
  inner _ hnode := absurd hnode List.not_mem_nil
  reaches _ hnode := absurd hnode List.not_mem_nil
  leads _ hnode := .single (List.mem_reverse.mp hnode)
  meets hmet := by cases hmet
  closed node hnode origin horigin := by
    obtain rfl : node = source := hnode.resolve_right List.not_mem_nil
    exact Or.inr (List.mem_reverse.mpr horigin)

namespace Searches

variable {origin : Node}

omit [DecidableEq Node] in
/-- An origin that the search is done with leaves the worklist. -/
theorem skip {next : Bool} (hsearches : Searches known barred origins source visited met
      (origin :: pending))
    (hsettled : Settled known barred source visited next origin)
    (hmet : met = true → next = true)
    (hmeets : next = true → ∃ node ∈ barred, Reaches origins source node) :
    Searches known barred origins source visited next pending where
  nodup := hsearches.nodup
  inner := hsearches.inner
  reaches := hsearches.reaches
  leads node hnode := hsearches.leads node (List.mem_cons_of_mem _ hnode)
  meets := hmeets
  closed node hnode other hother := by
    rcases hsearches.closed node hnode other hother with hdone | hpending
    · exact Or.inl (hdone.imp id (Or.imp id (Or.imp (And.imp id hmet) id)))
    · rcases List.mem_cons.mp hpending with rfl | hlater
      · exact Or.inl hsettled
      · exact Or.inr hlater

omit [DecidableEq Node] in
/-- A known origin is visited, and its own origins go on the worklist. -/
theorem visit (hsearches : Searches known barred origins source visited met (origin :: pending))
    (hbarred : origin ∉ barred) (hnew : origin ∉ visited) (hknown : origin ∈ known)
    (hother : origin ≠ source) :
    Searches known barred origins source (origin :: visited) met
      ((origins origin).reverse ++ pending) := by
  have hreached := hsearches.leads origin List.mem_cons_self
  constructor
  case nodup => exact List.nodup_cons.mpr ⟨hnew, hsearches.nodup⟩
  case inner =>
    intro node hnode
    rcases List.mem_cons.mp hnode with rfl | hold
    · exact ⟨hknown, hbarred, hother⟩
    · exact hsearches.inner node hold
  case reaches =>
    intro node hnode
    rcases List.mem_cons.mp hnode with rfl | hold
    · exact hreached
    · exact hsearches.reaches node hold
  case leads =>
    intro node hnode
    rcases List.mem_append.mp hnode with hnext | hlater
    · exact hreached.tail (List.mem_reverse.mp hnext)
    · exact hsearches.leads node (List.mem_cons_of_mem _ hlater)
  case meets => exact hsearches.meets
  case closed =>
    intro node hnode next hnext
    have hcases : node = origin ∨ node = source ∨ node ∈ visited := by
      rw [List.mem_cons] at hnode
      tauto
    rcases hcases with rfl | hold
    · exact Or.inr (List.mem_append_left _ (List.mem_reverse.mpr hnext))
    rcases hsearches.closed node hold next hnext with hdone | hpending
    · exact Or.inl (hdone.imp (List.mem_cons_of_mem _) id)
    · rcases List.mem_cons.mp hpending with rfl | hlater
      · exact Or.inl (Or.inl List.mem_cons_self)
      · exact Or.inr (List.mem_append_right _ hlater)

/-- What holds at the start of a search holds at its end. -/
theorem ends (hsearches : Searches known barred origins source visited met pending) :
    Searches known barred origins source
      (search known barred origins source visited met pending).1
      (search known barred origins source visited met pending).2 [] := by
  induction visited, met, pending using search.induct known barred origins source with
  | case1 visited met =>
      rw [search]
      exact hsearches
  | case2 visited met origin pending hbarred ih =>
      rw [search, if_pos hbarred]
      refine ih (hsearches.skip (Or.inr (Or.inr (Or.inl ⟨hbarred, rfl⟩))) (fun _ => rfl) fun _ => ?_)
      exact ⟨origin, hbarred, hsearches.leads origin List.mem_cons_self⟩
  | case3 visited met origin pending hbarred hskip ih =>
      rw [search, if_neg hbarred, if_pos hskip]
      refine ih (hsearches.skip ?_ id hsearches.meets)
      rcases hskip with hvisited | hunknown | hsource
      · exact Or.inl hvisited
      · exact Or.inr (Or.inr (Or.inr ⟨hbarred, hunknown⟩))
      · exact Or.inr (Or.inl hsource)
  | case4 visited met origin pending hbarred hvisit ih =>
      rw [search, if_neg hbarred, if_neg hvisit]
      obtain ⟨hnew, hrest⟩ := not_or.mp hvisit
      obtain ⟨hknown, hother⟩ := not_or.mp hrest
      exact ih (hsearches.visit hbarred hnew (not_not.mp hknown) hother)

omit [DecidableEq Node] in
/-- A finished search that met no barred node is done with all that can be reached. -/
theorem settled_of_reaches (hsearches : Searches known barred origins source visited false [])
    (houtside : ∀ other, other ∉ known → origins other = []) (hbarred : source ∉ barred)
    (hreaches : Reaches origins source node) :
    node ∉ barred ∧ (node ∈ visited ∨ node = source ∨ node ∉ known) := by
  have hsettled : ∀ {node}, Settled known barred source visited false node →
      node ∉ barred ∧ (node ∈ visited ∨ node = source ∨ node ∉ known) := by
    rintro node (hvisited | rfl | ⟨-, hmet⟩ | ⟨hfree, hunknown⟩)
    · exact ⟨(hsearches.inner node hvisited).2.1, Or.inl hvisited⟩
    · exact ⟨hbarred, Or.inr (Or.inl rfl)⟩
    · cases hmet
    · exact ⟨hfree, Or.inr (Or.inr hunknown)⟩
  have hnext : ∀ {node origin}, node = source ∨ node ∈ visited → origin ∈ origins node →
      Settled known barred source visited false origin := fun hnode horigin =>
    (hsearches.closed _ hnode _ horigin).resolve_right List.not_mem_nil
  induction hreaches with
  | single hedge => exact hsettled (hnext (Or.inl rfl) hedge)
  | @tail middle last _ hedge ih =>
      rcases ih.2 with hvisited | hsource | hunknown
      · exact hsettled (hnext (Or.inr hvisited) hedge)
      · exact hsettled (hnext (Or.inl hsource) hedge)
      · rw [DependsOn, houtside middle hunknown] at hedge
        cases hedge

end Searches

/-- A search meets a barred node exactly if one can be reached. -/
theorem searchFrom_met_iff (houtside : ∀ other, other ∉ known → origins other = [])
    (hbarred : source ∉ barred) :
    (searchFrom known barred origins source).2 = true ↔
      ∃ node ∈ barred, Reaches origins source node := by
  have hends := (searches_start known barred origins source).ends
  refine ⟨hends.meets, ?_⟩
  rintro ⟨node, hnode, hreaches⟩
  by_contra hmet
  rw [Bool.not_eq_true] at hmet
  rw [searchFrom] at hmet
  rw [hmet] at hends
  exact (hends.settled_of_reaches houtside hbarred hreaches).1 hnode

/-- A search that meets no barred node visits what can be reached and is known. -/
theorem mem_searchFrom_iff (houtside : ∀ other, other ∉ known → origins other = [])
    (hbarred : source ∉ barred)
    (hfree : ∀ node ∈ barred, ¬Reaches origins source node) :
    node ∈ (searchFrom known barred origins source).1 ↔
      node ∈ known ∧ node ≠ source ∧ Reaches origins source node := by
  have hends := (searches_start known barred origins source).ends
  have hmet : (searchFrom known barred origins source).2 = false := by
    rw [← Bool.not_eq_true, searchFrom_met_iff houtside hbarred]
    rintro ⟨barrier, hbarrier, hreaches⟩
    exact hfree barrier hbarrier hreaches
  constructor
  · intro hnode
    have hinner := hends.inner node hnode
    exact ⟨hinner.1, hinner.2.2, hends.reaches node hnode⟩
  · rintro ⟨hknown, hother, hreaches⟩
    rw [searchFrom] at hmet
    rw [hmet] at hends
    rcases (hends.settled_of_reaches houtside hbarred hreaches).2 with hvisited | hsource | hout
    · exact hvisited
    · exact absurd hsource hother
    · exact absurd hknown hout

theorem nodup_searchFrom (known barred : List Node) (origins : Node → List Node) (source : Node) :
    (searchFrom known barred origins source).1.Nodup :=
  (searches_start known barred origins source).ends.nodup

end AegisForge.Core.Worklist
