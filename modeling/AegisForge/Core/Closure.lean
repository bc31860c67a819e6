import Mathlib.Data.List.Dedup
import Mathlib.Data.List.Perm.Subperm
import Mathlib.Logic.Relation

/-!
# Closure under edges

What follows some nodes along the edges of a finite graph, by rounds of a bounded
number and by a worklist that is taken in chunks.  Both give the same nodes: no
more rounds than edges are needed, and no more chunks than nodes can be marked.
-/

namespace AegisForge.Core.Closure

variable {Node : Type*}

/-- There is an edge from one node to another. -/
def Edge (edges : List (Node × Node)) (source target : Node) : Prop := (source, target) ∈ edges

/-- The node follows one of the nodes along some edges. -/
def Follows (edges : List (Node × Node)) (nodes : List Node) (node : Node) : Prop :=
  ∃ start ∈ nodes, Relation.TransGen (Edge edges) start node

variable [DecidableEq Node] {edges : List (Node × Node)} {nodes marked frontier : List Node}
variable {node : Node}

/-- Where the edges from some nodes lead. -/
def successors (edges : List (Node × Node)) (nodes : List Node) : List Node :=
  (edges.filter fun edge => edge.1 ∈ nodes).map Prod.snd

theorem mem_successors :
    node ∈ successors edges nodes ↔ ∃ source ∈ nodes, Edge edges source node := by
  simp only [successors, List.mem_map, List.mem_filter, decide_eq_true_eq, Prod.exists]
  constructor
  · rintro ⟨source, target, ⟨hedge, hsource⟩, rfl⟩
    exact ⟨source, hsource, hedge⟩
  · rintro ⟨source, hsource, hedge⟩
    exact ⟨source, node, ⟨hedge, hsource⟩, rfl⟩

/-! ## Rounds -/

/-- What follows some nodes along at most a number of edges. -/
def within (edges : List (Node × Node)) : ℕ → List Node → List Node
  | 0, _ => []
  | rounds + 1, nodes =>
      successors edges nodes ++ within edges rounds (successors edges nodes)

theorem follows_of_mem_within {rounds : ℕ} (hnode : node ∈ within edges rounds nodes) :
    Follows edges nodes node := by
  induction rounds generalizing nodes with
  | zero => cases hnode
  | succ rounds ih =>
      rw [within, List.mem_append] at hnode
      rcases hnode with hfirst | hlater
      · obtain ⟨source, hsource, hedge⟩ := mem_successors.mp hfirst
        exact ⟨source, hsource, Relation.TransGen.single hedge⟩
      · obtain ⟨middle, hmiddle, hrest⟩ := ih hlater
        obtain ⟨source, hsource, hedge⟩ := mem_successors.mp hmiddle
        exact ⟨source, hsource, Relation.TransGen.head hedge hrest⟩

theorem within_mono {fewer : List (Node × Node)} {chosen : List Node} {rounds more : ℕ}
    (hedges : ∀ edge ∈ fewer, edge ∈ edges) (hnodes : ∀ node ∈ chosen, node ∈ nodes)
    (hrounds : rounds ≤ more) (hnode : node ∈ within fewer rounds chosen) :
    node ∈ within edges more nodes := by
  induction rounds generalizing chosen nodes more with
  | zero => cases hnode
  | succ rounds ih =>
      obtain ⟨more, rfl⟩ : ∃ rest, more = rest + 1 := ⟨more - 1, by omega⟩
      have hsuccessors : ∀ node ∈ successors fewer chosen, node ∈ successors edges nodes := by
        intro node hnode
        obtain ⟨source, hsource, hedge⟩ := mem_successors.mp hnode
        exact mem_successors.mpr ⟨source, hnodes source hsource, hedges _ hedge⟩
      rw [within, List.mem_append] at hnode
      rw [within, List.mem_append]
      rcases hnode with hfirst | hlater
      · exact Or.inl (hsuccessors node hfirst)
      · exact Or.inr (ih hsuccessors (Nat.le_of_succ_le_succ hrounds) hlater)

/-- A way along edges leaves its start for good with some edge from it. -/
theorem exists_last_departure {start : Node} (hway : Relation.TransGen (Edge edges) start node) :
    ∃ next, Edge edges start next ∧
      Relation.ReflTransGen (Edge (edges.filter fun edge => edge.1 ≠ start)) next node := by
  induction hway with
  | single hedge => exact ⟨_, hedge, Relation.ReflTransGen.refl⟩
  | @tail middle last hway hedge ih =>
      obtain ⟨next, hnext, hrest⟩ := ih
      by_cases hmiddle : middle = start
      · rw [hmiddle] at hedge
        exact ⟨last, hedge, Relation.ReflTransGen.refl⟩
      · have hkept : Edge (edges.filter fun edge => edge.1 ≠ start) middle last :=
          List.mem_filter.mpr ⟨hedge, decide_eq_true hmiddle⟩
        exact ⟨next, hnext, hrest.tail hkept⟩

theorem mem_within_of_transGen {start : Node}
    (hway : Relation.TransGen (Edge edges) start node) :
    node ∈ within edges edges.length [start] := by
  induction hlength : edges.length using Nat.strongRecOn generalizing edges start with
  | ind length ih =>
      obtain ⟨next, hnext, hrest⟩ := exists_last_departure hway
      have hfewer : (edges.filter fun edge => edge.1 ≠ start).length < edges.length := by
        refine List.length_filter_lt_length_iff_exists.mpr ⟨(start, next), hnext, ?_⟩
        simp
      obtain ⟨rounds, rfl⟩ : ∃ rounds, length = rounds + 1 :=
        ⟨length - 1, by omega⟩
      have hfirst : next ∈ successors edges [start] :=
        mem_successors.mpr ⟨start, List.mem_singleton_self start, hnext⟩
      rw [within, List.mem_append]
      rcases Relation.reflTransGen_iff_eq_or_transGen.mp hrest with rfl | hway
      · exact Or.inl hfirst
      · have hlater := ih _ (hlength ▸ hfewer) hway rfl
        refine Or.inr (within_mono (fun edge hedge => (List.mem_filter.mp hedge).1) ?_ ?_ hlater)
        · intro other hother
          rw [List.mem_singleton.mp hother]
          exact hfirst
        · omega

/-- As many rounds as there are edges reach everything. -/
theorem mem_within_iff {rounds : ℕ} (hrounds : edges.length ≤ rounds) :
    node ∈ within edges rounds nodes ↔ Follows edges nodes node := by
  refine ⟨follows_of_mem_within, fun ⟨start, hstart, hway⟩ => ?_⟩
  refine within_mono (fun _ hedge => hedge) (fun other hother => ?_) hrounds
    (mem_within_of_transGen hway)
  rw [List.mem_singleton.mp hother]
  exact hstart

/-! ## The worklist -/

/-- The nodes that are not marked, each of them once. -/
def unmarked (marked : List Node) : List Node → List Node
  | [] => []
  | node :: rest =>
      if node ∈ marked then unmarked marked rest else node :: unmarked (node :: marked) rest

theorem mem_unmarked : node ∈ unmarked marked nodes ↔ node ∈ nodes ∧ node ∉ marked := by
  induction nodes generalizing marked with
  | nil => simp [unmarked]
  | cons first rest ih =>
      rw [unmarked]
      by_cases hfirst : first ∈ marked
      · rw [if_pos hfirst, ih, List.mem_cons]
        constructor
        · rintro ⟨hrest, hnot⟩
          exact ⟨Or.inr hrest, hnot⟩
        · rintro ⟨rfl | hrest, hnot⟩
          · exact absurd hfirst hnot
          · exact ⟨hrest, hnot⟩
      · rw [if_neg hfirst, List.mem_cons, ih, List.mem_cons, List.mem_cons]
        by_cases hnode : node = first
        · subst hnode
          simp [hfirst]
        · simp [hnode]

theorem nodup_unmarked (marked nodes : List Node) : (unmarked marked nodes).Nodup := by
  induction nodes generalizing marked with
  | nil => exact List.nodup_nil
  | cons first rest ih =>
      rw [unmarked]
      split
      case isTrue => exact ih marked
      case isFalse =>
        refine List.nodup_cons.mpr ⟨fun hmem => ?_, ih _⟩
        exact (mem_unmarked.mp hmem).2 List.mem_cons_self

/-- Chunks of the worklist are taken until it is empty; every new node is marked and
put on the worklist. -/
def mark (edges : List (Node × Node)) (size : ℕ) :
    ℕ → List Node → List Node → Option (List Node)
  | _, marked, [] => some marked
  | 0, _, _ :: _ => none
  | fuel + 1, marked, first :: rest =>
      let new := unmarked marked (successors edges ((first :: rest).take size))
      mark edges size fuel (marked ++ new) ((first :: rest).drop size ++ new)

/-- What holds between two chunks. -/
structure Marking (edges : List (Node × Node)) (nodes marked frontier : List Node) : Prop where
  sound : ∀ node ∈ marked, Follows edges nodes node
  listed : ∀ node ∈ frontier, node ∈ nodes ∨ node ∈ marked
  done : ∀ source, source ∈ nodes ∨ source ∈ marked →
    source ∈ frontier ∨ ∀ target, Edge edges source target → target ∈ marked

omit [DecidableEq Node] in
theorem Marking.start (edges : List (Node × Node)) (nodes : List Node) :
    Marking edges nodes [] nodes where
  sound _ hnode := absurd hnode List.not_mem_nil
  listed _ hnode := Or.inl hnode
  done _ hsource := Or.inl (hsource.resolve_right List.not_mem_nil)

theorem Marking.step (size : ℕ) (hmarking : Marking edges nodes marked frontier) :
    Marking edges nodes
      (marked ++ unmarked marked (successors edges (frontier.take size)))
      (frontier.drop size ++ unmarked marked (successors edges (frontier.take size))) where
  sound node hnode := by
    rcases List.mem_append.mp hnode with hold | hnew
    · exact hmarking.sound node hold
    · obtain ⟨source, hsource, hedge⟩ := mem_successors.mp (mem_unmarked.mp hnew).1
      rcases hmarking.listed source (List.mem_of_mem_take hsource) with hstart | hmarked
      · exact ⟨source, hstart, Relation.TransGen.single hedge⟩
      · obtain ⟨start, hstart, hway⟩ := hmarking.sound source hmarked
        exact ⟨start, hstart, hway.tail hedge⟩
  listed node hnode := by
    rcases List.mem_append.mp hnode with hold | hnew
    · rcases hmarking.listed node (List.mem_of_mem_drop hold) with hstart | hmarked
      · exact Or.inl hstart
      · exact Or.inr (List.mem_append_left _ hmarked)
    · exact Or.inr (List.mem_append_right _ hnew)
  done source hsource := by
    by_cases hnew : source ∈ unmarked marked (successors edges (frontier.take size))
    · exact Or.inl (List.mem_append_right _ hnew)
    · have hold : source ∈ nodes ∨ source ∈ marked := by
        rcases hsource with hstart | hmarked
        · exact Or.inl hstart
        · exact Or.inr ((List.mem_append.mp hmarked).resolve_right hnew)
      rcases hmarking.done source hold with hfrontier | hdone
      · rw [← List.take_append_drop size frontier, List.mem_append] at hfrontier
        rcases hfrontier with htaken | hleft
        · refine Or.inr fun target hedge => ?_
          by_cases hmarked : target ∈ marked
          · exact List.mem_append_left _ hmarked
          · exact List.mem_append_right _
              (mem_unmarked.mpr ⟨mem_successors.mpr ⟨source, htaken, hedge⟩, hmarked⟩)
        · exact Or.inl (List.mem_append_left _ hleft)
      · exact Or.inr fun target hedge => List.mem_append_left _ (hdone target hedge)

omit [DecidableEq Node] in
/-- With an empty worklist exactly what follows is marked. -/
theorem Marking.mem_iff (hmarking : Marking edges nodes marked []) :
    node ∈ marked ↔ Follows edges nodes node := by
  constructor
  · exact hmarking.sound node
  · rintro ⟨start, hstart, hway⟩
    induction hway with
    | single hedge =>
        exact (hmarking.done start (Or.inl hstart)).resolve_left List.not_mem_nil _ hedge
    | tail hway hedge ih =>
        exact (hmarking.done _ (Or.inr ih)).resolve_left List.not_mem_nil _ hedge

theorem Marking.mem_mark_iff {size fuel : ℕ} {result : List Node}
    (hmarking : Marking edges nodes marked frontier)
    (hmark : mark edges size fuel marked frontier = some result) :
    node ∈ result ↔ Follows edges nodes node := by
  induction fuel generalizing marked frontier with
  | zero =>
      cases frontier with
      | nil =>
          rw [← Option.some.inj hmark]
          exact hmarking.mem_iff
      | cons first rest => cases hmark
  | succ fuel ih =>
      cases frontier with
      | nil =>
          rw [← Option.some.inj hmark]
          exact hmarking.mem_iff
      | cons first rest => exact ih (hmarking.step size) hmark

theorem mem_mark_iff {size fuel : ℕ} {result : List Node}
    (hmark : mark edges size fuel [] nodes = some result) :
    node ∈ result ↔ Follows edges nodes node :=
  (Marking.start edges nodes).mem_mark_iff hmark

/-! ## How many chunks there are -/

/-- The nodes that may still be marked. -/
def unseen (edges : List (Node × Node)) (marked : List Node) : List Node :=
  (edges.map Prod.snd).dedup.filter fun node => node ∉ marked

theorem length_unseen_append (edges : List (Node × Node)) (marked chunk : List Node) :
    (unseen edges (marked ++ unmarked marked (successors edges chunk))).length +
        (unmarked marked (successors edges chunk)).length ≤ (unseen edges marked).length := by
  have hdisjoint : (unseen edges (marked ++ unmarked marked (successors edges chunk)) ++
      unmarked marked (successors edges chunk)).Nodup := by
    refine List.nodup_append.mpr ⟨(List.nodup_dedup _).filter _, nodup_unmarked _ _, ?_⟩
    intro left hleft right hright heq
    have hnot : left ∉ marked ++ unmarked marked (successors edges chunk) := by
      simpa using (List.mem_filter.mp hleft).2
    exact hnot (List.mem_append_right _ (heq ▸ hright))
  rw [← List.length_append]
  refine (List.subperm_of_subset hdisjoint fun node hnode => ?_).length_le
  rcases List.mem_append.mp hnode with hlater | hnew
  · obtain ⟨htarget, hnot⟩ := List.mem_filter.mp hlater
    have hnot : node ∉ marked := fun hmarked =>
      of_decide_eq_true hnot (List.mem_append_left _ hmarked)
    exact List.mem_filter.mpr ⟨htarget, decide_eq_true hnot⟩
  · obtain ⟨hsuccessor, hnot⟩ := mem_unmarked.mp hnew
    obtain ⟨source, -, hedge⟩ := mem_successors.mp hsuccessor
    have htarget : node ∈ edges.map Prod.snd := List.mem_map.mpr ⟨(source, node), hedge, rfl⟩
    exact List.mem_filter.mpr ⟨List.mem_dedup.mpr htarget, decide_eq_true hnot⟩

theorem mark_isSome {size fuel : ℕ} (hsize : 0 < size)
    (hfuel : frontier.length + (unseen edges marked).length ≤ fuel) :
    (mark edges size fuel marked frontier).isSome = true := by
  induction fuel generalizing marked frontier with
  | zero =>
      cases frontier with
      | nil => rfl
      | cons first rest => simp at hfuel
  | succ fuel ih =>
      cases frontier with
      | nil => rfl
      | cons first rest =>
          rw [mark]
          apply ih
          have hunseen := length_unseen_append edges marked ((first :: rest).take size)
          have hdrop : ((first :: rest).drop size).length + 1 ≤ (first :: rest).length := by
            rw [List.length_drop, List.length_cons]
            omega
          rw [List.length_append]
          omega

/-- A chunk for every node at the start and every edge is enough. -/
theorem exists_mark {size fuel : ℕ} (hsize : 0 < size)
    (hfuel : nodes.length + edges.length ≤ fuel) :
    ∃ result, mark edges size fuel [] nodes = some result := by
  refine Option.isSome_iff_exists.mp (mark_isSome hsize (Nat.le_trans ?_ hfuel))
  have hunseen : (unseen edges []).length ≤ edges.length :=
    calc (unseen edges []).length
        ≤ (edges.map Prod.snd).dedup.length := List.length_filter_le _ _
      _ ≤ (edges.map Prod.snd).length := (List.dedup_sublist _).length_le
      _ = edges.length := List.length_map _
  omega

end AegisForge.Core.Closure
