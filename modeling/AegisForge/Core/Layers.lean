import Mathlib.Data.Nat.Notation

/-!
# Searches by layers

A search that goes through its frontier in every round and stops after a number
of rounds or at an empty frontier.  Whatever lies fewer steps away than there are
rounds is searched, in whatever order a round goes through its frontier.
-/

namespace AegisForge.Core.Layers

variable {Node : Type*} {edge : Node → Node → Prop} {searched frontier final : Node → Prop}
variable {rounds steps : ℕ} {start node : Node}

/-- The second node lies a number of steps behind the first one. -/
def Steps (edge : Node → Node → Prop) : ℕ → Node → Node → Prop
  | 0, start, node => start = node
  | steps + 1, start, node => ∃ next, edge start next ∧ Steps edge steps next node

theorem Steps.concat {next : Node} (hsteps : Steps edge steps start node)
    (hedge : edge node next) : Steps edge (steps + 1) start next := by
  induction steps generalizing start with
  | zero =>
      obtain rfl : start = node := hsteps
      exact ⟨next, hedge, rfl⟩
  | succ steps ih =>
      obtain ⟨first, hfirst, hrest⟩ := hsteps
      exact ⟨first, hfirst, ih hrest⟩

theorem Steps.exists_last (hsteps : Steps edge (steps + 1) start node) :
    ∃ last, Steps edge steps start last ∧ edge last node := by
  induction steps generalizing start with
  | zero =>
      obtain ⟨next, hedge, hnext⟩ := hsteps
      obtain rfl : next = node := hnext
      exact ⟨start, rfl, hedge⟩
  | succ steps ih =>
      obtain ⟨next, hedge, hrest⟩ := hsteps
      obtain ⟨last, hlast, hnode⟩ := ih hrest
      exact ⟨last, ⟨next, hedge, hlast⟩, hnode⟩

/-- The least number of steps from the first node to the second one. -/
structure IsDistance (edge : Node → Node → Prop) (start node : Node) (distance : ℕ) : Prop where
  steps : Steps edge distance start node
  least : ∀ fewer < distance, ¬Steps edge fewer start node

theorem Steps.exists_isDistance (hsteps : Steps edge steps start node) :
    ∃ distance ≤ steps, IsDistance edge start node distance := by
  induction steps using Nat.strongRecOn with
  | ind steps ih =>
      by_cases hfewer : ∃ fewer < steps, Steps edge fewer start node
      · obtain ⟨fewer, hless, hreached⟩ := hfewer
        obtain ⟨distance, hle, hdistance⟩ := ih fewer hless hreached
        exact ⟨distance, by omega, hdistance⟩
      · exact ⟨steps, Nat.le_refl steps, hsteps, fun fewer hless hreached => hfewer ⟨fewer, hless, hreached⟩⟩

/-- A node that is first reached in a step behind another one is that one step
further away. -/
theorem IsDistance.of_edge {next : Node} (hsteps : Steps edge steps start node)
    (hedge : edge node next) (hnew : ∀ fewer ≤ steps, ¬Steps edge fewer start next) :
    IsDistance edge start node steps ∧ IsDistance edge start next (steps + 1) := by
  refine ⟨⟨hsteps, fun fewer hless hreached => ?_⟩, hsteps.concat hedge, fun fewer hless => ?_⟩
  · exact hnew (fewer + 1) (by omega) (hreached.concat hedge)
  · exact hnew fewer (by omega)

/-- Every edge from a searched node leads to a searched one or to the frontier. -/
def Closed (edge : Node → Node → Prop) (searched frontier : Node → Prop) : Prop :=
  ∀ node next, searched node → edge node next → searched next ∨ frontier next

/-- What a number of rounds searches.  The round that is the last one need not
collect a frontier. -/
inductive Rounds (edge : Node → Node → Prop) :
    ℕ → (Node → Prop) → (Node → Prop) → (Node → Prop) → Prop
  | done (searched frontier : Node → Prop) : Rounds edge 0 searched frontier searched
  | empty (rounds : ℕ) {searched frontier : Node → Prop} (hempty : ∀ node, ¬frontier node) :
      Rounds edge rounds searched frontier searched
  | round {rounds : ℕ} {searched frontier searched' frontier' final : Node → Prop}
      (hkeeps : ∀ node, searched node → searched' node)
      (htakes : ∀ node, frontier node → searched' node)
      (hcloses : 0 < rounds → Closed edge searched' frontier')
      (hrest : Rounds edge rounds searched' frontier' final) :
      Rounds edge (rounds + 1) searched frontier final

theorem Rounds.keeps (hrounds : Rounds edge rounds searched frontier final)
    (hnode : searched node) : final node := by
  induction hrounds with
  | done => exact hnode
  | empty => exact hnode
  | round hkeeps _ _ _ ih => exact ih (hkeeps node hnode)

/-- Fewer steps than rounds lead to a searched node. -/
theorem Rounds.reaches (hrounds : Rounds edge rounds searched frontier final)
    (hclosed : Closed edge searched frontier) (hstart : searched start ∨ frontier start)
    (hsteps : Steps edge steps start node) (hfew : steps < rounds) : final node := by
  induction hrounds generalizing start steps with
  | done => exact absurd hfew (Nat.not_lt_zero steps)
  | empty rounds hempty =>
      -- without a frontier the searched nodes are closed under the edges
      have hsearched := hstart.resolve_right (hempty start)
      clear hstart hfew
      induction steps generalizing start with
      | zero => exact hsteps ▸ hsearched
      | succ steps ih =>
          obtain ⟨next, hedge, hrest⟩ := hsteps
          exact ih hrest ((hclosed start next hsearched hedge).resolve_right (hempty next))
  | round hkeeps htakes hcloses hrest ih =>
      have hsearched := hstart.elim (hkeeps start) (htakes start)
      cases steps with
      | zero => exact hrest.keeps (hsteps ▸ hsearched)
      | succ steps =>
          obtain ⟨next, hedge, hbehind⟩ := hsteps
          have hclosed := hcloses (by omega)
          exact ih hclosed (hclosed start next hsearched hedge) hbehind (by omega)

end AegisForge.Core.Layers
