import AegisForge.Core.DepthFirst

/-!
# Searches for cycles

A depth-first search that marks a node while it is on the stack and after it.  A node
that is met on the stack closes a cycle, which is recorded.  The search ends, and it
records a cycle exactly if there is one: as long as it has recorded none it does what
the depth-first walk does that fails at the first cycle.
-/

namespace AegisForge.Core.CycleSearch

variable {Node : Type*} [DecidableEq Node]

inductive Color
  | unvisited
  | active
  | done
  deriving DecidableEq

structure Visit (Node : Type*) where
  state : Node → Color := fun _ => .unvisited
  stack : List Node := []
  cycles : List (List Node) := []

/-- Records the part of the stack that leads back to the node. -/
def record (visited : Visit Node) (node : Node) : Visit Node :=
  let start := if node ∈ visited.stack then visited.stack.idxOf node else 0
  let cycle := visited.stack.drop start ++ [node]
  { visited with
    cycles := if cycle ∈ visited.cycles then visited.cycles else visited.cycles ++ [cycle] }

def enter (visited : Visit Node) (node : Node) : Visit Node :=
  { visited with
    state := Function.update visited.state node .active
    stack := visited.stack ++ [node] }

def leave (visited : Visit Node) (node : Node) : Visit Node :=
  { visited with
    state := Function.update visited.state node .done
    stack := visited.stack.dropLast }

/-- Visits a node and the known nodes behind it, to a depth. -/
def visit (known : List Node) (origins : Node → List Node) :
    ℕ → Visit Node → Node → Option (Visit Node)
  | fuel, visited, node =>
      match visited.state node with
      | .done => some visited
      | .active => some (record visited node)
      | .unvisited =>
          match fuel with
          | 0 => none
          | fuel + 1 =>
              ((origins node).foldlM (fun visited origin =>
                if origin ∈ known then visit known origins fuel visited origin
                else some visited) (enter visited node)).map fun after => leave after node

/-- A visit where the loop meets a known node. -/
def visitKnown (known : List Node) (origins : Node → List Node) (fuel : ℕ)
    (visited : Visit Node) (origin : Node) : Option (Visit Node) :=
  if origin ∈ known then visit known origins fuel visited origin else some visited

/-- Visits all known nodes. -/
def visitAll (known : List Node) (origins : Node → List Node) : Option (Visit Node) :=
  known.foldlM (visit known origins known.length) {}

variable {known : List Node} {origins : Node → List Node} {visited after : Visit Node}
variable {node : Node} {fuel : ℕ}

theorem visit_of_done (known : List Node) (origins : Node → List Node) (fuel : ℕ)
    (hdone : visited.state node = .done) :
    visit known origins fuel visited node = some visited := by
  cases fuel <;> rw [visit, hdone]

theorem visit_of_active (known : List Node) (origins : Node → List Node) (fuel : ℕ)
    (hactive : visited.state node = .active) :
    visit known origins fuel visited node = some (record visited node) := by
  cases fuel <;> rw [visit, hactive]

theorem visit_zero (known : List Node) (origins : Node → List Node)
    (hnew : visited.state node = .unvisited) : visit known origins 0 visited node = none := by
  rw [visit, hnew]

theorem visit_succ (known : List Node) (origins : Node → List Node) (fuel : ℕ)
    (hnew : visited.state node = .unvisited) :
    visit known origins (fuel + 1) visited node =
      ((origins node).foldlM (visitKnown known origins fuel) (enter visited node)).map fun after =>
        leave after node := by
  rw [visit, hnew]
  rfl

/-! ## The search ends -/

/-- The nodes on the stack are those that are marked so, and they are known. -/
structure Proper (known : List Node) (visited : Visit Node) : Prop where
  active : ∀ other, visited.state other = .active ↔ other ∈ visited.stack
  nodup : visited.stack.Nodup
  known : ∀ other ∈ visited.stack, other ∈ known

/-- A part of the search has ended with the stack as it was and has lost no cycle. -/
structure Ends (known : List Node) (visited after : Visit Node) : Prop where
  proper : Proper known after
  stack : after.stack = visited.stack
  cycles : visited.cycles ≠ [] → after.cycles ≠ []

omit [DecidableEq Node] in
theorem Ends.refl (hproper : Proper known visited) : Ends known visited visited :=
  ⟨hproper, rfl, id⟩

omit [DecidableEq Node] in
theorem Ends.trans {between : Visit Node} (hfirst : Ends known visited between)
    (hrest : Ends known between after) : Ends known visited after :=
  ⟨hrest.proper, hrest.stack.trans hfirst.stack, fun h => hrest.cycles (hfirst.cycles h)⟩

theorem cycles_record_ne_nil (visited : Visit Node) (node : Node) :
    (record visited node).cycles ≠ [] := by
  rw [record]
  dsimp only
  generalize visited.stack.drop _ ++ [node] = cycle
  by_cases hmem : cycle ∈ visited.cycles
  · rw [if_pos hmem]
    exact List.ne_nil_of_mem hmem
  · rw [if_neg hmem]
    exact List.append_ne_nil_of_right_ne_nil _ (List.cons_ne_nil _ _)

theorem ends_record (hproper : Proper known visited) (node : Node) :
    Ends known visited (record visited node) :=
  ⟨⟨hproper.active, hproper.nodup, hproper.known⟩, rfl, fun _ => cycles_record_ne_nil visited node⟩

@[simp]
theorem state_enter (visited : Visit Node) (node other : Node) :
    (enter visited node).state other = if other = node then .active else visited.state other :=
  Function.update_apply _ _ _ _

@[simp]
theorem stack_enter (visited : Visit Node) (node : Node) :
    (enter visited node).stack = visited.stack ++ [node] := rfl

@[simp]
theorem state_leave (visited : Visit Node) (node other : Node) :
    (leave visited node).state other = if other = node then .done else visited.state other :=
  Function.update_apply _ _ _ _

@[simp]
theorem stack_leave (visited : Visit Node) (node : Node) :
    (leave visited node).stack = visited.stack.dropLast := rfl

omit [DecidableEq Node] in
theorem not_mem_stack (hproper : Proper known visited) (hnew : visited.state node = .unvisited) :
    node ∉ visited.stack := by
  intro hmem
  rw [(hproper.active node).mpr hmem] at hnew
  cases hnew

theorem proper_enter (hproper : Proper known visited) (hknown : node ∈ known)
    (hnew : visited.state node = .unvisited) : Proper known (enter visited node) := by
  refine ⟨fun other => ?_, ?_, fun other hother => ?_⟩
  · rw [state_enter, stack_enter, List.mem_append, List.mem_singleton]
    by_cases hsame : other = node
    · simp [hsame]
    · simp [hsame, hproper.active]
  · rw [stack_enter, ← List.concat_eq_append]
    exact hproper.nodup.concat (not_mem_stack hproper hnew)
  · rcases List.mem_append.mp hother with hother | hother
    · exact hproper.known other hother
    · exact List.mem_singleton.mp hother ▸ hknown

theorem ends_leave (hproper : Proper known visited) (hnew : visited.state node = .unvisited)
    (hends : Ends known (enter visited node) after) :
    Ends known visited (leave after node) := by
  have hstack : (leave after node).stack = visited.stack := by
    rw [stack_leave, hends.stack, stack_enter, List.dropLast_concat]
  refine ⟨⟨fun other => ?_, ?_, ?_⟩, hstack, hends.cycles⟩
  · have hactive := hends.proper.active other
    rw [hends.stack, stack_enter, List.mem_append, List.mem_singleton] at hactive
    rw [hstack, state_leave]
    by_cases hsame : other = node
    · simp [hsame, not_mem_stack hproper hnew]
    · simp [hsame, hactive]
  · rw [hstack]
    exact hproper.nodup
  · rw [hstack]
    exact hproper.known

omit [DecidableEq Node] in
/-- A loop of visits ends if each visit does. -/
theorem ends_foldlM (step : Visit Node → Node → Option (Visit Node)) (nodes stack : List Node)
    (hstep : ∀ visited, Proper known visited → visited.stack = stack →
      ∀ node ∈ nodes, ∃ next, step visited node = some next ∧ Ends known visited next)
    (hproper : Proper known visited) (hstack : visited.stack = stack) :
    ∃ next, nodes.foldlM step visited = some next ∧ Ends known visited next := by
  induction nodes generalizing visited with
  | nil => exact ⟨visited, rfl, Ends.refl hproper⟩
  | cons first rest ih =>
      obtain ⟨between, hfirst, hends⟩ := hstep visited hproper hstack first List.mem_cons_self
      obtain ⟨next, hrest, hlater⟩ := ih
        (fun visited hproper hstack node hnode =>
          hstep visited hproper hstack node (List.mem_cons_of_mem _ hnode))
        hends.proper (hends.stack.trans hstack)
      refine ⟨next, ?_, hends.trans hlater⟩
      rw [List.foldlM_cons, hfirst]
      exact hrest

/-- A visit ends: the stack holds known nodes, each once. -/
theorem ends_visit (hproper : Proper known visited) (hknown : node ∈ known)
    (hfuel : known.length ≤ fuel + visited.stack.length) :
    ∃ next, visit known origins fuel visited node = some next ∧ Ends known visited next := by
  induction fuel generalizing visited node with
  | zero =>
      cases hstate : visited.state node with
      | done => exact ⟨visited, visit_of_done known origins 0 hstate, Ends.refl hproper⟩
      | active => exact ⟨_, visit_of_active known origins 0 hstate, ends_record hproper node⟩
      | unvisited =>
          have hentered := proper_enter hproper hknown hstate
          have hlength := (hentered.nodup.subperm hentered.known).length_le
          rw [stack_enter, List.length_append, List.length_singleton] at hlength
          omega
  | succ fuel ih =>
      cases hstate : visited.state node with
      | done => exact ⟨visited, visit_of_done known origins _ hstate, Ends.refl hproper⟩
      | active => exact ⟨_, visit_of_active known origins _ hstate, ends_record hproper node⟩
      | unvisited =>
          have hentered := proper_enter hproper hknown hstate
          have hstep : ∀ middle, Proper known middle → middle.stack = visited.stack ++ [node] →
              ∀ origin ∈ origins node, ∃ next,
                visitKnown known origins fuel middle origin = some next ∧
                  Ends known middle next := by
            intro middle hmiddle hstack origin _
            rw [visitKnown]
            split
            case isTrue horigin =>
              refine ih hmiddle horigin ?_
              rw [hstack, List.length_append, List.length_singleton]
              omega
            case isFalse => exact ⟨middle, rfl, Ends.refl hmiddle⟩
          obtain ⟨next, hnext, hends⟩ := ends_foldlM _ (origins node) _ hstep hentered rfl
          refine ⟨leave next node, ?_, ends_leave hproper hstate hends⟩
          rw [visit_succ known origins fuel hstate, hnext]
          rfl

/-- What is left of the depth is enough for the known nodes that are not on the stack. -/
theorem ends_visitKnown {stack : List Node} (hfuel : known.length ≤ fuel + stack.length) :
    ∀ visited, Proper known visited → visited.stack = stack → ∀ node, ∃ next,
      visitKnown known origins fuel visited node = some next ∧ Ends known visited next := by
  intro visited hproper hstack node
  rw [visitKnown]
  split
  case isTrue hknown => exact ends_visit hproper hknown (hstack ▸ hfuel)
  case isFalse => exact ⟨visited, rfl, Ends.refl hproper⟩

/-! ## What it records -/

/-- The edges between known nodes. -/
def inner (known : List Node) (origins : Node → List Node) (node : Node) : List Node :=
  (origins node).filter (· ∈ known)

/-- The search stands where the walk that fails at a cycle stands. -/
structure Agrees (visited : Visit Node) (visiting order : List Node) : Prop where
  active : ∀ other, visited.state other = .active ↔ other ∈ visiting
  done : ∀ other, visited.state other = .done ↔ other ∈ order
  clean : visited.cycles = []

/-- A visit and the one of the walk: either neither meets a cycle, or both do. -/
structure Matches (visiting : List Node) (next : Visit Node)
    (answer : Except Unit (List Node)) : Prop where
  ok : ∀ order, answer = .ok order → Agrees next visiting order
  error : ∀ raised, answer = .error raised → next.cycles ≠ []

theorem Agrees.enter {visiting order : List Node} (hagrees : Agrees visited visiting order)
    (hnew : visited.state node = .unvisited) :
    Agrees (enter visited node) (node :: visiting) order := by
  refine ⟨fun other => ?_, fun other => ?_, hagrees.clean⟩
  · rw [state_enter, List.mem_cons, ← hagrees.active]
    by_cases hsame : other = node <;> simp [hsame]
  · rw [state_enter, ← hagrees.done]
    by_cases hsame : other = node <;> simp [hsame, hnew]

theorem Agrees.leave {visiting order : List Node} (hagrees : Agrees visited (node :: visiting) order)
    (hoff : node ∉ visiting) : Agrees (leave visited node) visiting (order ++ [node]) := by
  refine ⟨fun other => ?_, fun other => ?_, hagrees.clean⟩
  · have hactive := hagrees.active other
    rw [state_leave]
    by_cases hsame : other = node
    · simp [hsame, hoff]
    · simpa [hsame] using hactive
  · rw [state_leave, List.mem_append, List.mem_singleton, ← hagrees.done]
    by_cases hsame : other = node <;> simp [hsame]

omit [DecidableEq Node] in
/-- Loops match if their visits do; once a cycle is recorded it stays. -/
theorem matches_foldlM (step : Visit Node → Node → Option (Visit Node))
    (walkStep : List Node → Node → Except Unit (List Node)) (nodes stack : List Node)
    {visiting order : List Node} {next : Visit Node}
    (hends : ∀ visited, Proper known visited → visited.stack = stack →
      ∀ node ∈ nodes, ∃ next, step visited node = some next ∧ Ends known visited next)
    (hstep : ∀ visited order, Proper known visited → visited.stack = stack →
      Agrees visited visiting order → ∀ node ∈ nodes, ∀ next, step visited node = some next →
        Matches visiting next (walkStep order node))
    (hproper : Proper known visited) (hstack : visited.stack = stack)
    (hagrees : Agrees visited visiting order) (hnext : nodes.foldlM step visited = some next) :
    Matches visiting next (nodes.foldlM walkStep order) := by
  induction nodes generalizing visited order with
  | nil =>
      obtain rfl := Option.some.inj hnext
      exact ⟨fun found hfound => Except.ok.inj hfound ▸ hagrees, fun _ herror => (by cases herror)⟩
  | cons first rest ih =>
      obtain ⟨between, hfirst, hends'⟩ := hends visited hproper hstack first List.mem_cons_self
      have hmatches :=
        hstep visited order hproper hstack hagrees first List.mem_cons_self between hfirst
      have hrestEnds : ∀ visited, Proper known visited → visited.stack = stack →
          ∀ node ∈ rest, ∃ next, step visited node = some next ∧ Ends known visited next :=
        fun visited hproper hstack node hnode =>
          hends visited hproper hstack node (List.mem_cons_of_mem _ hnode)
      have hbetween := hends'.stack.trans hstack
      rw [List.foldlM_cons, hfirst] at hnext
      rw [List.foldlM_cons]
      cases hwalk : walkStep order first with
      | ok middle =>
          exact ih hrestEnds (fun visited order hproper hstack hagrees node hnode =>
            hstep visited order hproper hstack hagrees node (List.mem_cons_of_mem _ hnode))
            hends'.proper hbetween (hmatches.ok middle hwalk) hnext
      | error raised =>
          obtain ⟨last, hlast, hlater⟩ := ends_foldlM step rest stack hrestEnds hends'.proper hbetween
          obtain rfl := Option.some.inj (hlast.symm.trans hnext)
          exact ⟨fun _ hok => (by cases hok), fun _ _ => hlater.cycles (hmatches.error raised hwalk)⟩

/-- At a node that has been met, the search and the walk do alike. -/
theorem matches_of_met {visiting order : List Node} {next : Visit Node}
    (hagrees : Agrees visited visiting order) (hmet : visited.state node ≠ .unvisited)
    (hnext : visit known origins fuel visited node = some next) :
    Matches visiting next
      (DepthFirst.visit (inner known origins) () fuel visiting order node) := by
  rw [DepthFirst.visit.eq_def]
  dsimp only
  cases hstate : visited.state node with
  | unvisited => exact absurd hstate hmet
  | active =>
      rw [visit_of_active known origins fuel hstate] at hnext
      obtain rfl := Option.some.inj hnext
      rw [if_pos ((hagrees.active node).mp hstate)]
      exact ⟨fun _ hok => (by cases hok), fun _ _ => cycles_record_ne_nil visited node⟩
  | done =>
      rw [visit_of_done known origins fuel hstate] at hnext
      obtain rfl := Option.some.inj hnext
      have hoff : node ∉ visiting := fun hmem => by
        rw [(hagrees.active node).mpr hmem] at hstate
        cases hstate
      rw [if_neg hoff, if_pos ((hagrees.done node).mp hstate)]
      exact ⟨fun found hfound => Except.ok.inj hfound ▸ hagrees,
        fun _ herror => (by cases herror)⟩

theorem matches_visit {visiting order : List Node} {next : Visit Node}
    (hproper : Proper known visited) (hknown : node ∈ known)
    (hagrees : Agrees visited visiting order)
    (hfuel : known.length ≤ fuel + visited.stack.length)
    (hnext : visit known origins fuel visited node = some next) :
    Matches visiting next
      (DepthFirst.visit (inner known origins) () fuel visiting order node) := by
  induction fuel generalizing visited visiting order node next with
  | zero =>
      refine matches_of_met hagrees (fun hnew => ?_) hnext
      rw [visit_zero known origins hnew] at hnext
      cases hnext
  | succ fuel ih =>
      by_cases hnew : visited.state node = .unvisited
      case neg => exact matches_of_met hagrees hnew hnext
      rw [visit_succ known origins fuel hnew] at hnext
      obtain ⟨middle, hmiddle, rfl⟩ := Option.map_eq_some_iff.mp hnext
      have hoff : node ∉ visiting := fun hmem => by
        rw [(hagrees.active node).mpr hmem] at hnew
        cases hnew
      have hunlisted : node ∉ order := fun hmem => by
        rw [(hagrees.done node).mpr hmem] at hnew
        cases hnew
      have hentered := proper_enter hproper hknown hnew
      have hmore : known.length ≤ fuel + (visited.stack ++ [node]).length := by
        rw [List.length_append, List.length_singleton]
        omega
      have hmatches : Matches (node :: visiting) middle ((origins node).foldlM
          (fun order origin => if origin ∈ known then
            DepthFirst.visit (inner known origins) () fuel (node :: visiting) order origin
            else .ok order) order) := by
        refine matches_foldlM _ _ (origins node) (visited.stack ++ [node])
          (fun visited hproper hstack origin _ => ends_visitKnown hmore visited hproper hstack
            origin) ?_ hentered rfl (hagrees.enter hnew) hmiddle
        intro middle order hmiddle hstack hagrees origin _ next hnext
        rw [visitKnown] at hnext
        split at hnext
        case isTrue horigin =>
          rw [if_pos horigin]
          exact ih hmiddle horigin hagrees (hstack ▸ hmore) hnext
        case isFalse horigin =>
          rw [if_neg horigin]
          obtain rfl := Option.some.inj hnext
          exact ⟨fun found hfound => Except.ok.inj hfound ▸ hagrees,
            fun _ herror => (by cases herror)⟩
      have hwalk : DepthFirst.visit (inner known origins) () (fuel + 1) visiting order node =
          ((origins node).foldlM (fun order origin => if origin ∈ known then
            DepthFirst.visit (inner known origins) () fuel (node :: visiting) order origin
            else .ok order) order).map fun order => order ++ [node] := by
        rw [DepthFirst.visit, if_neg hoff, if_neg hunlisted, inner, List.foldlM_filter]
        simp only [decide_eq_true_eq]
        rfl
      rw [hwalk]
      cases hfold : (origins node).foldlM (fun order origin => if origin ∈ known then
          DepthFirst.visit (inner known origins) () fuel (node :: visiting) order origin
          else .ok order) order with
      | ok listed =>
          refine ⟨fun found hfound => ?_, fun _ herror => (by cases herror)⟩
          obtain rfl := Except.ok.inj hfound
          exact (hmatches.ok listed hfold).leave hoff
      | error raised =>
          exact ⟨fun _ hok => (by cases hok), fun _ _ => hmatches.error raised hfold⟩

/-! ## Cycles -/

omit [DecidableEq Node] in
theorem proper_start (known : List Node) : Proper known {} :=
  ⟨fun _ => by simp, List.nodup_nil, fun _ h => absurd h List.not_mem_nil⟩

/-- A cycle runs through known nodes only. -/
theorem cyclic_inner_iff (houtside : ∀ other, other ∉ known → origins other = []) :
    DepthFirst.Cyclic (inner known origins) ↔ DepthFirst.Cyclic origins := by
  have hknown : ∀ {first last : Node}, DependsOn origins first last → first ∈ known := by
    intro first last hedge
    by_contra hunknown
    rw [DependsOn, houtside first hunknown] at hedge
    cases hedge
  have hinner : ∀ {first last : Node}, Relation.TransGen (DependsOn origins) first last →
      last ∈ known → Relation.TransGen (DependsOn (inner known origins)) first last := by
    intro first last hpath
    induction hpath with
    | single hedge => exact fun hlast => .single (List.mem_filter.mpr ⟨hedge, decide_eq_true hlast⟩)
    | tail _ hedge ih =>
        exact fun hlast => (ih (hknown hedge)).tail
          (List.mem_filter.mpr ⟨hedge, decide_eq_true hlast⟩)
  constructor
  · rintro ⟨node, hcycle⟩
    have hfewer : DependsOn (inner known origins) ≤ DependsOn origins :=
      fun _ _ hedge => (List.mem_filter.mp hedge).1
    exact ⟨node, Relation.TransGen.mono hfewer node node hcycle⟩
  · rintro ⟨node, hcycle⟩
    obtain ⟨next, hedge, -⟩ := Relation.TransGen.head'_iff.mp hcycle
    exact ⟨node, hinner hcycle (hknown hedge)⟩

/-- The search ends, and it records a cycle exactly if there is one. -/
theorem exists_visitAll (houtside : ∀ other, other ∉ known → origins other = []) :
    ∃ last, visitAll known origins = some last ∧
      (last.cycles ≠ [] ↔ DepthFirst.Cyclic origins) := by
  have hends : ∀ visited, Proper known visited → visited.stack = [] → ∀ node ∈ known, ∃ next,
      visit known origins known.length visited node = some next ∧ Ends known visited next :=
    fun visited hproper _ node hnode => ends_visit hproper hnode (by omega)
  obtain ⟨last, hlast, -⟩ := ends_foldlM _ known [] hends (proper_start known) rfl
  have hstart : Agrees ({} : Visit Node) [] [] := ⟨fun _ => by simp, fun _ => by simp, rfl⟩
  have hmatches := matches_foldlM _
    (DepthFirst.visit (inner known origins) () known.length []) known [] hends
    (fun visited order hproper _ hagrees node hnode next hnext =>
      matches_visit hproper hnode hagrees (by omega) hnext)
    (proper_start known) rfl hstart hlast
  have hwalk : (∃ order, DepthFirst.walk (inner known origins) () known = .ok order) ↔
      ¬DepthFirst.Cyclic (inner known origins) := by
    refine DepthFirst.walk_eq_ok_iff (fun _ _ other hother => ?_) fun other hother => ?_
    · exact of_decide_eq_true (List.mem_filter.mp hother).2
    · rw [inner, houtside other hother]
      rfl
  refine ⟨last, hlast, ?_⟩
  rw [cyclic_inner_iff houtside, DepthFirst.walk] at hwalk
  constructor
  · intro hcycles
    by_contra hacyclic
    obtain ⟨order, hok⟩ := hwalk.mpr hacyclic
    exact hcycles (hmatches.ok order hok).clean
  · intro hcyclic
    cases hanswer : known.foldlM (DepthFirst.visit (inner known origins) () known.length []) []
      with
    | ok order => exact absurd hcyclic (hwalk.mp ⟨order, hanswer⟩)
    | error raised => exact hmatches.error raised hanswer

end AegisForge.Core.CycleSearch
