import AegisForge.Core.Closure
import AegisForge.Core.Text
import AegisForge.Shared.PlannerWork

/-!
# Duplicate roots of cases

The script goes through the cases that have several root tasks.  It keeps the first root
and those that are active or have active or completed descendants, and marks the others
by their planner decision; a kept root loses the mark.  The statuses and parents that it
reads are not those that it writes, so that a dry run reports the same and a second run
finds nothing to do.
-/

namespace AegisForge.Scripts.MigrateCasesToRounds

open AegisForge.Core AegisForge.Shared.TaskQueue

def dedupedRoot : String := "DEDUPED_ROOT"

structure KeptRoot where
  rootId : String
  caseId : String
  reason : String
  count : Option ℕ
  deriving DecidableEq

structure DedupedRoot where
  rootId : String
  caseId : String
  deriving DecidableEq

structure Summary where
  dryRun : Bool
  cases : ℕ
  kept : List KeptRoot
  deduped : List DedupedRoot
  deriving DecidableEq

/-! ## What the script reads -/

variable (tasks : TaskTable)

def isRootOf (caseId : String) (row : TaskRow) : Bool :=
  row.parentTaskId.isNone && row.researchCaseId = some caseId

/-- `ORDER BY created_at ASC, id ASC`. -/
def createdFirst (left right : TaskRow) : Prop :=
  left.createdAt < right.createdAt ∨ left.createdAt = right.createdAt ∧ left.id ≤ right.id

instance : DecidableRel createdFirst := fun _ _ => inferInstanceAs (Decidable (_ ∨ _ ∧ _))

/-- The roots of a case in their order. -/
def rootsOf (caseId : String) : List TaskRow :=
  (tasks.rows.filter (isRootOf caseId)).insertionSort createdFirst

/-- `GROUP BY research_case_id HAVING COUNT(*) > 1 ORDER BY research_case_id`. -/
def duplicateCases : List String :=
  sorted (((tasks.rows.filter fun row => row.parentTaskId.isNone).filterMap
    TaskRow.researchCaseId).dedup.filter fun caseId =>
      1 < (tasks.rows.filter (isRootOf caseId)).length)

/-- The links from parents to children. -/
def childEdges : List (String × String) :=
  tasks.rows.filterMap fun row => row.parentTaskId.map fun parentId => (parentId, row.id)

/-- `WITH RECURSIVE descendants`: the queue of the recursion is taken row by row, and
`UNION` leaves out what it has met. -/
def descendants (rootId : String) : Option (List String) :=
  Closure.mark (childEdges tasks) 1 (tasks.rows.length + 1) [] [rootId]

/-- `SUM(CASE WHEN ... THEN 1 ELSE 0 END) FROM descendants`. -/
def countBelow (ids : List String) (test : TaskRow → Bool) : ℕ :=
  tasks.rows.countP fun row => row.id ∈ ids && test row

/-- `status in {"pending", "running"}`. -/
def isActive (row : TaskRow) : Bool := row.isPending || row.isRunning

def isCompleted (row : TaskRow) : Bool := row.status = .completed

/-! ## What it writes -/

/-- `SET planner_decision = NULL WHERE id = ? AND planner_decision = 'DEDUPED_ROOT'`. -/
def unmarked (row : TaskRow) : TaskRow :=
  if row.plannerDecision = some dedupedRoot then row.decided none else row

theorem id_unmarked (row : TaskRow) : (unmarked row).id = row.id := by
  rw [unmarked]
  split <;> rfl

/-- The update of a kept root. -/
def restore (apply : Bool) (root : TaskRow) : TaskTable :=
  if apply = true ∧ root.plannerDecision = some dedupedRoot then
    tasks.modify root.id unmarked id_unmarked id_unmarked
  else tasks

/-- The update of a duplicate root. -/
def markDuplicate (apply : Bool) (root : TaskRow) : TaskTable :=
  if apply = true then markPlannerDecision tasks root.id (some dedupedRoot) else tasks

variable {tasks}

/-! ## The loops -/

structure Progress where
  tasks : TaskTable
  kept : List KeptRoot
  deduped : List DedupedRoot

/-- What is done about a root behind the first one. -/
def migrateRoot (apply : Bool) (caseId : String) (progress : Progress) (root : TaskRow) :
    Option Progress := do
  let ids ← descendants progress.tasks root.id
  let completedDescendants := countBelow progress.tasks ids isCompleted
  let activeDescendants := countBelow progress.tasks ids isActive
  if isActive root = true ∨ 0 < activeDescendants then
    return {
      tasks := restore progress.tasks apply root
      kept := progress.kept ++ [⟨root.id, caseId, "active_root_or_descendants",
        some (activeDescendants + if isActive root = true then 1 else 0)⟩]
      deduped := progress.deduped }
  else if 0 < completedDescendants then
    return {
      tasks := restore progress.tasks apply root
      kept := progress.kept ++
        [⟨root.id, caseId, "has_completed_descendants", some completedDescendants⟩]
      deduped := progress.deduped }
  else if root.plannerDecision = some dedupedRoot then return progress
  else
    return {
      tasks := markDuplicate progress.tasks apply root
      kept := progress.kept
      deduped := progress.deduped ++ [⟨root.id, caseId⟩] }

def migrateCase (apply : Bool) (progress : Progress) (caseId : String) : Option Progress :=
  match rootsOf progress.tasks caseId with
  | [] | [_] => some progress
  | first :: rest =>
      rest.foldlM (migrateRoot apply caseId) {
        tasks := restore progress.tasks apply first
        kept := progress.kept ++ [⟨first.id, caseId, "first_root", none⟩]
        deduped := progress.deduped }

/-- The script; it would not end where the search for descendants does not. -/
def migrate (tasks : TaskTable) (apply : Bool) : Option (Summary × TaskTable) := do
  let cases := duplicateCases tasks
  let progress ← cases.foldlM (migrateCase apply) ⟨tasks, [], []⟩
  return (⟨!apply, cases.length, progress.kept, progress.deduped⟩, progress.tasks)

/-! ## Tables with other decisions -/

/-- The table with other planner decisions. -/
def redecided (tasks : TaskTable) (decision : TaskRow → Option String) : TaskTable where
  rows := tasks.rows.map fun row => row.decided (decision row)
  primaryKey := by
    rw [List.map_map]
    exact tasks.primaryKey
  uniqueColumn := by
    rw [List.map_map]
    exact tasks.uniqueColumn

variable {decision other : TaskRow → Option String} {row root : TaskRow} {caseId rootId : String}
variable {ids done : List String} {apply : Bool}

theorem redecided_congr (hsame : ∀ row ∈ tasks.rows, decision row = other row) :
    redecided tasks decision = redecided tasks other :=
  Table.ext (List.map_congr_left fun row hrow => by rw [hsame row hrow])

theorem redecided_self (tasks : TaskTable) :
    redecided tasks TaskRow.plannerDecision = tasks :=
  Table.ext (List.map_id tasks.rows)

@[simp]
theorem childEdges_redecided : childEdges (redecided tasks decision) = childEdges tasks := by
  rw [childEdges, redecided, List.filterMap_map]
  rfl

@[simp]
theorem descendants_redecided :
    descendants (redecided tasks decision) rootId = descendants tasks rootId := by
  rw [descendants, descendants, childEdges_redecided, redecided, List.length_map]

theorem countBelow_redecided {test : TaskRow → Bool}
    (htest : ∀ row decision, test (TaskRow.decided decision row) = test row) :
    countBelow (redecided tasks decision) ids test = countBelow tasks ids test := by
  rw [countBelow, countBelow, redecided, List.countP_map]
  refine List.countP_congr fun row _ => ?_
  rw [Function.comp_apply, htest, TaskRow.id_decided]

theorem filter_isRootOf_redecided :
    (redecided tasks decision).rows.filter (isRootOf caseId) =
      (tasks.rows.filter (isRootOf caseId)).map fun row => row.decided (decision row) := by
  rw [redecided, List.filter_map]
  rfl

theorem rootsOf_redecided :
    rootsOf (redecided tasks decision) caseId =
      (rootsOf tasks caseId).map fun row => row.decided (decision row) := by
  rw [rootsOf, rootsOf, filter_isRootOf_redecided]
  exact (List.map_insertionSort createdFirst createdFirst
    (fun row : TaskRow => row.decided (decision row)) _ fun _ _ _ _ => Iff.rfl).symm

@[simp]
theorem duplicateCases_redecided :
    duplicateCases (redecided tasks decision) = duplicateCases tasks := by
  have hroots : (redecided tasks decision).rows.filter (fun row => row.parentTaskId.isNone) =
      (tasks.rows.filter fun row => row.parentTaskId.isNone).map
        fun row => row.decided (decision row) := by
    rw [redecided, List.filter_map]
    rfl
  simp only [duplicateCases, filter_isRootOf_redecided, List.length_map, hroots,
    List.filterMap_map]
  rfl

/-! ## Descendants -/

/-- The search for descendants ends. -/
theorem exists_descendants (tasks : TaskTable) (rootId : String) :
    ∃ ids, descendants tasks rootId = some ids ∧
      ∀ taskId, taskId ∈ ids ↔ Closure.Follows (childEdges tasks) [rootId] taskId := by
  have hedges : (childEdges tasks).length ≤ tasks.rows.length := List.length_filterMap_le _ _
  obtain ⟨ids, hids⟩ : ∃ ids, descendants tasks rootId = some ids := by
    refine Closure.exists_mark one_pos ?_
    rw [List.length_singleton]
    omega
  exact ⟨ids, hids, fun _ => Closure.mem_mark_iff hids⟩

/-- What the script finds below a root. -/
def below (tasks : TaskTable) (rootId : String) : List String :=
  (descendants tasks rootId).getD []

theorem descendants_eq_some_below (tasks : TaskTable) (rootId : String) :
    descendants tasks rootId = some (below tasks rootId) := by
  obtain ⟨ids, hids, -⟩ := exists_descendants tasks rootId
  rw [below, hids, Option.getD_some]

@[simp]
theorem below_redecided : below (redecided tasks decision) rootId = below tasks rootId := by
  rw [below, below, descendants_redecided]

/-! ## What becomes of a root -/

def activeBelow (tasks : TaskTable) (root : TaskRow) : ℕ :=
  countBelow tasks (below tasks root.id) isActive

def completedBelow (tasks : TaskTable) (root : TaskRow) : ℕ :=
  countBelow tasks (below tasks root.id) isCompleted

/-- The root is active, or something below it is active or completed. -/
def isSpared (tasks : TaskTable) (root : TaskRow) : Bool :=
  isActive root || 0 < activeBelow tasks root || 0 < completedBelow tasks root

def isFirstRoot (tasks : TaskTable) (root : TaskRow) : Bool :=
  (root.researchCaseId.bind fun caseId => (rootsOf tasks caseId).head?).any fun first =>
    first.id = root.id

/-- A decision without the mark. -/
def restored (decision : Option String) : Option String :=
  if decision = some dedupedRoot then none else decision

/-- The decision that a root has in the end. -/
def finalDecision (tasks : TaskTable) (root : TaskRow) : Option String :=
  if isFirstRoot tasks root = true ∨ isSpared tasks root = true then restored root.plannerDecision
  else some dedupedRoot

/-- What is reported about a kept root behind the first one. -/
def keptOf (tasks : TaskTable) (caseId : String) (root : TaskRow) : List KeptRoot :=
  if isActive root = true ∨ 0 < activeBelow tasks root then
    [⟨root.id, caseId, "active_root_or_descendants",
      some (activeBelow tasks root + if isActive root = true then 1 else 0)⟩]
  else if 0 < completedBelow tasks root then
    [⟨root.id, caseId, "has_completed_descendants", some (completedBelow tasks root)⟩]
  else []

/-- What is reported about a duplicate root. -/
def dedupedOf (tasks : TaskTable) (caseId : String) (root : TaskRow) : List DedupedRoot :=
  if isSpared tasks root = true ∨ root.plannerDecision = some dedupedRoot then []
  else [⟨root.id, caseId⟩]

@[simp]
theorem activeBelow_redecided {decided : Option String} :
    activeBelow (redecided tasks decision) (root.decided decided) = activeBelow tasks root := by
  rw [activeBelow, below_redecided]
  exact countBelow_redecided fun _ _ => rfl

@[simp]
theorem completedBelow_redecided {decided : Option String} :
    completedBelow (redecided tasks decision) (root.decided decided) =
      completedBelow tasks root := by
  rw [completedBelow, below_redecided]
  exact countBelow_redecided fun _ _ => rfl

@[simp]
theorem isSpared_redecided {decided : Option String} :
    isSpared (redecided tasks decision) (root.decided decided) = isSpared tasks root := by
  rw [isSpared, activeBelow_redecided, completedBelow_redecided]
  rfl

@[simp]
theorem isFirstRoot_redecided {decided : Option String} :
    isFirstRoot (redecided tasks decision) (root.decided decided) = isFirstRoot tasks root := by
  rw [isFirstRoot, isFirstRoot]
  cases hcase : root.researchCaseId with
  | none =>
      rw [TaskRow.decided, hcase]
      rfl
  | some caseId =>
      rw [TaskRow.decided, hcase, Option.bind_some, Option.bind_some, rootsOf_redecided,
        List.head?_map, Option.any_map]
      rfl

theorem restored_restored (decision : Option String) :
    restored (restored decision) = restored decision := by
  rw [restored, restored]
  split_ifs <;> rfl

/-! ## One root -/

/-- The table after the script has been through some roots. -/
def afterwards (tasks : TaskTable) (apply : Bool) (done : List String) : TaskTable :=
  redecided tasks fun row =>
    if apply = true ∧ row.id ∈ done then finalDecision tasks row else row.plannerDecision

theorem afterwards_nil : afterwards tasks apply [] = tasks := by
  rw [afterwards]
  simpa using redecided_self tasks

theorem afterwards_false : afterwards tasks false done = tasks := by
  rw [afterwards]
  simpa using redecided_self tasks

/-- A change of one row that has not been reached. -/
theorem modify_afterwards {change : TaskRow → TaskRow}
    {hkey hunique : ∀ row, (change row).id = row.id} (hroot : root ∈ tasks.rows)
    (hnew : root.id ∉ done) (hchange : change root = root.decided (finalDecision tasks root)) :
    (afterwards tasks true done).modify root.id change hkey hunique =
      afterwards tasks true (done ++ [root.id]) := by
  refine Table.ext ?_
  simp only [Table.modify, afterwards, redecided, List.map_map]
  refine List.map_congr_left fun row hrow => ?_
  rw [Function.comp_apply, TaskRow.id_decided]
  by_cases hsame : row.id = root.id
  · obtain rfl := Table.eq_of_unique_eq hrow hroot hsame
    have hlast : row.id ∈ done ++ [row.id] := List.mem_append_right _ List.mem_cons_self
    rw [if_pos rfl, if_neg fun h => hnew h.2, if_pos ⟨trivial, hlast⟩]
    exact hchange
  · have hmem : row.id ∈ done ++ [root.id] ↔ row.id ∈ done := by simp [hsame]
    rw [if_neg hsame]
    simp only [hmem]

/-- A root that keeps its decision may be taken for one that has been reached. -/
theorem afterwards_concat (hroot : root ∈ tasks.rows)
    (hkept : finalDecision tasks root = root.plannerDecision) :
    afterwards tasks apply (done ++ [root.id]) = afterwards tasks apply done := by
  refine redecided_congr fun row hrow => ?_
  by_cases hsame : row.id = root.id
  · obtain rfl := Table.eq_of_unique_eq hrow hroot hsame
    simp [hkept]
  · simp [hsame]

theorem restore_afterwards (hroot : root ∈ tasks.rows) (hnew : root.id ∉ done)
    (hfinal : finalDecision tasks root = restored root.plannerDecision) :
    restore (afterwards tasks apply done) apply root =
      afterwards tasks apply (done ++ [root.id]) := by
  rw [restore]
  split
  case isTrue hmarked =>
    obtain ⟨rfl, hdecision⟩ := hmarked
    refine modify_afterwards hroot hnew ?_
    rw [unmarked, if_pos hdecision, hfinal, restored, if_pos hdecision]
  case isFalse hother =>
    cases apply with
    | false => rw [afterwards_false, afterwards_false]
    | true =>
        have hunmarked : root.plannerDecision ≠ some dedupedRoot := fun h => hother ⟨rfl, h⟩
        rw [restored, if_neg hunmarked] at hfinal
        rw [afterwards_concat hroot hfinal]

theorem markDuplicate_afterwards (hroot : root ∈ tasks.rows) (hnew : root.id ∉ done)
    (hfinal : finalDecision tasks root = some dedupedRoot) :
    markDuplicate (afterwards tasks apply done) apply root =
      afterwards tasks apply (done ++ [root.id]) := by
  rw [markDuplicate]
  cases apply with
  | false => rw [if_neg Bool.false_ne_true, afterwards_false, afterwards_false]
  | true =>
      rw [if_pos rfl]
      exact modify_afterwards hroot hnew (by rw [hfinal])

/-- What the script does about a root behind the first one. -/
theorem migrateRoot_eq (hroot : root ∈ tasks.rows) (hnew : root.id ∉ done)
    (hlater : isFirstRoot tasks root = false) (kept : List KeptRoot)
    (deduped : List DedupedRoot) :
    migrateRoot apply caseId ⟨afterwards tasks apply done, kept, deduped⟩ root =
      some ⟨afterwards tasks apply (done ++ [root.id]), kept ++ keptOf tasks caseId root,
        deduped ++ dedupedOf tasks caseId root⟩ := by
  have hids : descendants (afterwards tasks apply done) root.id = some (below tasks root.id) := by
    rw [afterwards, descendants_redecided, descendants_eq_some_below]
  have hactive : countBelow (afterwards tasks apply done) (below tasks root.id) isActive =
      activeBelow tasks root := countBelow_redecided fun _ _ => rfl
  have hcompleted : countBelow (afterwards tasks apply done) (below tasks root.id) isCompleted =
      completedBelow tasks root := countBelow_redecided fun _ _ => rfl
  rw [migrateRoot]
  simp only [hids, Option.bind_eq_bind, Option.bind_some, hactive, hcompleted, Option.pure_def]
  by_cases hlive : isActive root = true ∨ 0 < activeBelow tasks root
  case pos =>
    have hspared : isSpared tasks root = true := by
      rw [isSpared]
      rcases hlive with h | h <;> simp [h]
    have hfinal : finalDecision tasks root = restored root.plannerDecision :=
      if_pos (Or.inr hspared)
    rw [if_pos hlive, restore_afterwards hroot hnew hfinal, keptOf, if_pos hlive, dedupedOf,
      if_pos (Or.inl hspared), List.append_nil]
  rw [if_neg hlive, keptOf, if_neg hlive]
  by_cases hdone : 0 < completedBelow tasks root
  case pos =>
    have hspared : isSpared tasks root = true := by
      rw [isSpared]
      simp [hdone]
    have hfinal : finalDecision tasks root = restored root.plannerDecision :=
      if_pos (Or.inr hspared)
    rw [if_pos hdone, restore_afterwards hroot hnew hfinal, if_pos hdone, dedupedOf,
      if_pos (Or.inl hspared), List.append_nil]
  have hspared : isSpared tasks root = false := by
    obtain ⟨hidle, hnone⟩ := not_or.mp hlive
    simp [isSpared, hidle, hnone, hdone]
  have hfinal : finalDecision tasks root = some dedupedRoot :=
    if_neg (by simp [hlater, hspared])
  rw [if_neg hdone, if_neg hdone, List.append_nil, dedupedOf, hspared]
  by_cases hmarked : root.plannerDecision = some dedupedRoot
  · rw [if_pos hmarked, if_pos (Or.inr hmarked), List.append_nil,
      afterwards_concat hroot (hfinal.trans hmarked.symm)]
  · rw [if_neg hmarked, markDuplicate_afterwards hroot hnew hfinal, if_neg (by simp [hmarked])]

/-! ## One case -/

theorem mem_rootsOf :
    row ∈ rootsOf tasks caseId ↔ row ∈ tasks.rows ∧ isRootOf caseId row = true := by
  rw [rootsOf, List.mem_insertionSort, List.mem_filter]

theorem researchCaseId_of_mem_rootsOf (hrow : row ∈ rootsOf tasks caseId) :
    row.researchCaseId = some caseId := by
  have hroot := (mem_rootsOf.mp hrow).2
  simp only [isRootOf, Bool.and_eq_true, decide_eq_true_eq] at hroot
  exact hroot.2

theorem nodup_ids_rootsOf (tasks : TaskTable) (caseId : String) :
    ((rootsOf tasks caseId).map TaskRow.id).Nodup := by
  have hperm := (List.perm_insertionSort createdFirst
    (tasks.rows.filter (isRootOf caseId))).map TaskRow.id
  exact hperm.nodup_iff.mpr (tasks.primaryKey.sublist (List.filter_sublist.map TaskRow.id))

/-- Roots that have not been reached are read as they were. -/
theorem rootsOf_afterwards (hnew : ∀ row ∈ rootsOf tasks caseId, row.id ∉ done) :
    rootsOf (afterwards tasks apply done) caseId = rootsOf tasks caseId := by
  rw [afterwards, rootsOf_redecided]
  refine (List.map_congr_left fun row hrow => ?_).trans (List.map_id _)
  rw [if_neg fun h => hnew row hrow h.2]
  rfl

theorem isFirstRoot_iff_of_mem_rootsOf (hrow : row ∈ rootsOf tasks caseId) :
    isFirstRoot tasks row = true ↔ (rootsOf tasks caseId).head?.map TaskRow.id = some row.id := by
  rw [isFirstRoot, researchCaseId_of_mem_rootsOf hrow, Option.bind_some, Option.any_eq_true]
  simp

/-- What is reported about a case. -/
def keptOfCase (tasks : TaskTable) (caseId : String) : List KeptRoot :=
  match rootsOf tasks caseId with
  | [] | [_] => []
  | first :: rest =>
      ⟨first.id, caseId, "first_root", none⟩ :: rest.flatMap (keptOf tasks caseId)

def dedupedOfCase (tasks : TaskTable) (caseId : String) : List DedupedRoot :=
  (rootsOf tasks caseId).tail.flatMap (dedupedOf tasks caseId)

theorem foldlM_migrateRoot (roots : List TaskRow)
    (hroots : ∀ root ∈ roots, root ∈ tasks.rows ∧ root.id ∉ done ∧ isFirstRoot tasks root = false)
    (hnodup : (roots.map TaskRow.id).Nodup) (kept : List KeptRoot) (deduped : List DedupedRoot) :
    roots.foldlM (migrateRoot apply caseId) ⟨afterwards tasks apply done, kept, deduped⟩ =
      some ⟨afterwards tasks apply (done ++ roots.map TaskRow.id),
        kept ++ roots.flatMap (keptOf tasks caseId),
        deduped ++ roots.flatMap (dedupedOf tasks caseId)⟩ := by
  induction roots generalizing done kept deduped with
  | nil => simp
  | cons root rest ih =>
      obtain ⟨hroot, hnew, hlater⟩ := hroots root List.mem_cons_self
      rw [List.map_cons, List.nodup_cons] at hnodup
      rw [List.foldlM_cons, migrateRoot_eq hroot hnew hlater, Option.bind_eq_bind,
        Option.bind_some, ih _ hnodup.2]
      · simp only [List.append_assoc, List.map_cons, List.flatMap_cons, List.singleton_append]
      · intro other hother
        obtain ⟨hmem, hfresh, hrest⟩ := hroots other (List.mem_cons_of_mem _ hother)
        refine ⟨hmem, fun hdone => ?_, hrest⟩
        rcases List.mem_append.mp hdone with hold | hlast
        · exact hfresh hold
        · exact hnodup.1 (List.mem_singleton.mp hlast ▸ List.mem_map_of_mem hother)

/-- A case with several roots is gone through as a whole. -/
theorem migrateCase_eq (hseveral : 1 < (rootsOf tasks caseId).length)
    (hnew : ∀ row ∈ rootsOf tasks caseId, row.id ∉ done) (kept : List KeptRoot)
    (deduped : List DedupedRoot) :
    migrateCase apply ⟨afterwards tasks apply done, kept, deduped⟩ caseId =
      some ⟨afterwards tasks apply (done ++ (rootsOf tasks caseId).map TaskRow.id),
        kept ++ keptOfCase tasks caseId, deduped ++ dedupedOfCase tasks caseId⟩ := by
  rw [migrateCase, rootsOf_afterwards hnew, keptOfCase, dedupedOfCase]
  have hnodup := nodup_ids_rootsOf tasks caseId
  have hfirst : ∀ row ∈ rootsOf tasks caseId, (isFirstRoot tasks row = true ↔
      (rootsOf tasks caseId).head?.map TaskRow.id = some row.id) :=
    fun row hrow => isFirstRoot_iff_of_mem_rootsOf hrow
  have hmem : ∀ row ∈ rootsOf tasks caseId, row ∈ tasks.rows :=
    fun row hrow => (mem_rootsOf.mp hrow).1
  generalize rootsOf tasks caseId = roots at *
  rcases roots with _ | ⟨first, _ | ⟨second, rest⟩⟩
  · simp at hseveral
  · simp at hseveral
  · have hfinal : finalDecision tasks first = restored first.plannerDecision :=
      if_pos (Or.inl ((hfirst first List.mem_cons_self).mpr rfl))
    dsimp only
    rw [restore_afterwards (hmem first List.mem_cons_self) (hnew first List.mem_cons_self) hfinal]
    rw [List.map_cons, List.nodup_cons] at hnodup
    rw [foldlM_migrateRoot (second :: rest) ?_ hnodup.2]
    · simp only [List.append_assoc, List.map_cons, List.singleton_append, List.tail_cons]
    · intro root hroot
      have hother : root.id ≠ first.id := fun h =>
        hnodup.1 (h ▸ List.mem_map_of_mem hroot)
      have hroots := List.mem_cons_of_mem first hroot
      refine ⟨hmem root hroots, fun hdone => ?_, ?_⟩
      · rcases List.mem_append.mp hdone with hold | hlast
        · exact hnew root hroots hold
        · exact hother (List.mem_singleton.mp hlast)
      · rw [← Bool.not_eq_true, hfirst root hroots]
        simpa using hother.symm

/-! ## All cases -/

theorem mem_duplicateCases :
    caseId ∈ duplicateCases tasks ↔ 1 < (rootsOf tasks caseId).length := by
  rw [duplicateCases, mem_sorted, List.mem_filter, decide_eq_true_eq, rootsOf,
    List.length_insertionSort]
  refine and_iff_right_of_imp fun hseveral => ?_
  obtain ⟨root, hroot⟩ := List.exists_mem_of_length_pos (by omega :
    0 < (tasks.rows.filter (isRootOf caseId)).length)
  obtain ⟨hmem, hrootOf⟩ := List.mem_filter.mp hroot
  simp only [isRootOf, Bool.and_eq_true, decide_eq_true_eq] at hrootOf
  rw [List.mem_dedup, List.mem_filterMap]
  exact ⟨root, List.mem_filter.mpr ⟨hmem, hrootOf.1⟩, hrootOf.2⟩

theorem nodup_duplicateCases (tasks : TaskTable) : (duplicateCases tasks).Nodup :=
  (List.perm_insertionSort _ _).nodup_iff.mpr ((List.nodup_dedup _).filter _)

/-- The ids of the roots of some cases. -/
def rootIds (tasks : TaskTable) (caseIds : List String) : List String :=
  caseIds.flatMap fun caseId => (rootsOf tasks caseId).map TaskRow.id

theorem foldlM_migrateCase (caseIds : List String) (hnodup : caseIds.Nodup)
    (hseveral : ∀ caseId ∈ caseIds, 1 < (rootsOf tasks caseId).length)
    (hnew : ∀ caseId ∈ caseIds, ∀ row ∈ rootsOf tasks caseId, row.id ∉ done)
    (kept : List KeptRoot) (deduped : List DedupedRoot) :
    caseIds.foldlM (migrateCase apply) ⟨afterwards tasks apply done, kept, deduped⟩ =
      some ⟨afterwards tasks apply (done ++ rootIds tasks caseIds),
        kept ++ caseIds.flatMap (keptOfCase tasks),
        deduped ++ caseIds.flatMap (dedupedOfCase tasks)⟩ := by
  induction caseIds generalizing done kept deduped with
  | nil => simp [rootIds]
  | cons caseId rest ih =>
      obtain ⟨hother, hrest⟩ := List.nodup_cons.mp hnodup
      rw [List.foldlM_cons,
        migrateCase_eq (hseveral caseId List.mem_cons_self) (hnew caseId List.mem_cons_self),
        Option.bind_eq_bind, Option.bind_some, ih hrest]
      · simp only [rootIds, List.append_assoc, List.flatMap_cons]
      · exact fun other hmem => hseveral other (List.mem_cons_of_mem _ hmem)
      · intro other hmem row hrow hdone
        rcases List.mem_append.mp hdone with hold | hlast
        · exact hnew other (List.mem_cons_of_mem _ hmem) row hrow hold
        · obtain ⟨root, hroot, hsame⟩ := List.mem_map.mp hlast
          obtain rfl := Table.eq_of_unique_eq (mem_rootsOf.mp hroot).1 (mem_rootsOf.mp hrow).1 hsame
          have hcase := (researchCaseId_of_mem_rootsOf hroot).symm.trans
            (researchCaseId_of_mem_rootsOf hrow)
          exact hother (Option.some.inj hcase ▸ hmem)

/-- What the script reports, whether it applies its changes or not. -/
def reported (tasks : TaskTable) (apply : Bool) : Summary where
  dryRun := !apply
  cases := (duplicateCases tasks).length
  kept := (duplicateCases tasks).flatMap (keptOfCase tasks)
  deduped := (duplicateCases tasks).flatMap (dedupedOfCase tasks)

theorem migrate_eq (tasks : TaskTable) (apply : Bool) :
    migrate tasks apply = some (reported tasks apply,
      afterwards tasks apply (rootIds tasks (duplicateCases tasks))) := by
  have hfold : (duplicateCases tasks).foldlM (migrateCase apply)
      ⟨afterwards tasks apply [], [], []⟩ = _ :=
    foldlM_migrateCase (duplicateCases tasks) (nodup_duplicateCases tasks)
      (fun _ => mem_duplicateCases.mp) (fun _ _ _ _ => List.not_mem_nil) [] []
  rw [afterwards_nil, List.nil_append, List.nil_append, List.nil_append] at hfold
  rw [migrate]
  simp only [hfold, Option.bind_eq_bind, Option.bind_some, Option.pure_def]
  rfl

/-! ## Which roots are marked -/

/-- The parent of a task. -/
def IsParent (tasks : TaskTable) (parentId childId : String) : Prop :=
  ∃ row ∈ tasks.rows, row.id = childId ∧ row.parentTaskId = some parentId

/-- A task at any depth below another. -/
def IsDescendant (tasks : TaskTable) (rootId : String) (row : TaskRow) : Prop :=
  row ∈ tasks.rows ∧ Relation.TransGen (IsParent tasks) rootId row.id

theorem edge_childEdges_iff {parentId childId : String} :
    Closure.Edge (childEdges tasks) parentId childId ↔ IsParent tasks parentId childId := by
  rw [Closure.Edge, childEdges, List.mem_filterMap]
  constructor
  · rintro ⟨row, hrow, hedge⟩
    obtain ⟨other, hlink, hpair⟩ := Option.map_eq_some_iff.mp hedge
    obtain ⟨rfl, hid⟩ := Prod.mk.inj hpair
    exact ⟨row, hrow, hid, hlink⟩
  · rintro ⟨row, hrow, rfl, hlink⟩
    exact ⟨row, hrow, by rw [hlink, Option.map_some]⟩

theorem mem_below_iff (hrow : row ∈ tasks.rows) :
    row.id ∈ below tasks rootId ↔ IsDescendant tasks rootId row := by
  obtain ⟨ids, hids, hfollows⟩ := exists_descendants tasks rootId
  have hedge : Closure.Edge (childEdges tasks) = IsParent tasks := by
    funext parentId childId
    exact propext edge_childEdges_iff
  rw [below, hids, Option.getD_some, hfollows, Closure.Follows, hedge, IsDescendant]
  simp [hrow]

theorem countBelow_pos_iff {test : TaskRow → Bool} :
    0 < countBelow tasks (below tasks rootId) test ↔
      ∃ row, IsDescendant tasks rootId row ∧ test row = true := by
  rw [countBelow, List.countP_pos_iff]
  constructor
  · rintro ⟨row, hrow, hboth⟩
    rw [Bool.and_eq_true, decide_eq_true_eq, mem_below_iff hrow] at hboth
    exact ⟨row, hboth⟩
  · rintro ⟨row, hbelow, htest⟩
    refine ⟨row, hbelow.1, ?_⟩
    rw [Bool.and_eq_true, decide_eq_true_eq, mem_below_iff hbelow.1]
    exact ⟨hbelow, htest⟩

/-- The root is pending or running, or something below it is pending, running or completed. -/
theorem isSpared_iff :
    isSpared tasks root = true ↔ isActive root = true ∨ ∃ row, IsDescendant tasks root.id row ∧
      (isActive row = true ∨ isCompleted row = true) := by
  rw [isSpared, Bool.or_eq_true, Bool.or_eq_true, decide_eq_true_eq, decide_eq_true_eq,
    activeBelow, completedBelow, countBelow_pos_iff, countBelow_pos_iff, or_assoc]
  refine or_congr_right ?_
  constructor
  · rintro (⟨row, hbelow, hactive⟩ | ⟨row, hbelow, hcompleted⟩)
    · exact ⟨row, hbelow, Or.inl hactive⟩
    · exact ⟨row, hbelow, Or.inr hcompleted⟩
  · rintro ⟨row, hbelow, hactive | hcompleted⟩
    · exact Or.inl ⟨row, hbelow, hactive⟩
    · exact Or.inr ⟨row, hbelow, hcompleted⟩

instance : Std.Total createdFirst where
  total left right := by
    rcases lt_trichotomy left.createdAt right.createdAt with hlt | heq | hgt
    · exact Or.inl (Or.inl hlt)
    · exact (le_total left.id right.id).imp (fun h => Or.inr ⟨heq, h⟩) fun h => Or.inr ⟨heq.symm, h⟩
    · exact Or.inr (Or.inl hgt)

instance : IsTrans TaskRow createdFirst where
  trans first second third := by
    rintro (hfirst | ⟨hfirst, hid⟩) (hsecond | ⟨hsecond, hid'⟩)
    · exact Or.inl (hfirst.trans hsecond)
    · exact Or.inl (hsecond ▸ hfirst)
    · exact Or.inl (hfirst ▸ hsecond)
    · exact Or.inr ⟨hfirst.trans hsecond, hid.trans hid'⟩

/-- The root comes before all others of its case. -/
def IsFirst (tasks : TaskTable) (caseId : String) (root : TaskRow) : Prop :=
  ∀ other ∈ tasks.rows, isRootOf caseId other = true → createdFirst root other

theorem id_eq_of_createdFirst {left right : TaskRow} (hforth : createdFirst left right)
    (hback : createdFirst right left) : left.id = right.id := by
  rcases hforth with hlt | ⟨heq, hid⟩
  · rcases hback with hgt | ⟨heq, -⟩
    · exact absurd hgt (lt_asymm hlt)
    · exact absurd heq (ne_of_gt hlt)
  · rcases hback with hgt | ⟨-, hid'⟩
    · exact absurd heq (ne_of_gt hgt)
    · exact le_antisymm hid hid'

theorem isFirstRoot_iff (hrow : row ∈ rootsOf tasks caseId) :
    isFirstRoot tasks row = true ↔ IsFirst tasks caseId row := by
  rw [isFirstRoot_iff_of_mem_rootsOf hrow]
  have hsorted := List.pairwise_insertionSort createdFirst (tasks.rows.filter (isRootOf caseId))
  rw [← rootsOf] at hsorted
  cases hroots : rootsOf tasks caseId with
  | nil =>
      rw [hroots] at hrow
      cases hrow
  | cons first rest =>
      rw [hroots] at hrow hsorted
      have hleast : ∀ other ∈ first :: rest, createdFirst first other := by
        intro other hother
        rcases List.mem_cons.mp hother with rfl | hlater
        · exact Or.inr ⟨rfl, le_rfl⟩
        · exact (List.pairwise_cons.mp hsorted).1 other hlater
      have hmem : ∀ other, other ∈ first :: rest ↔
          other ∈ tasks.rows ∧ isRootOf caseId other = true := fun other => by
        rw [← hroots, mem_rootsOf]
      rw [List.head?_cons, Option.map_some, Option.some.injEq]
      constructor
      · intro hsame other hother hrootOf
        obtain rfl := Table.eq_of_unique_eq ((hmem first).mp List.mem_cons_self).1
          ((hmem row).mp hrow).1 hsame
        exact hleast other ((hmem other).mpr ⟨hother, hrootOf⟩)
      · intro hisFirst
        obtain ⟨hfirst, hfirstRoot⟩ := (hmem first).mp List.mem_cons_self
        exact id_eq_of_createdFirst (hleast row hrow) (hisFirst first hfirst hfirstRoot)

/-- The root is one of several of a case. -/
def IsRootAmongSeveral (tasks : TaskTable) (caseId : String) (root : TaskRow) : Prop :=
  root ∈ tasks.rows ∧ isRootOf caseId root = true ∧
    ∃ other ∈ tasks.rows, isRootOf caseId other = true ∧ other.id ≠ root.id

/-- The root is not the first one of its case, and neither it nor anything below it is
pending or running, nor is anything below it completed. -/
def IsDuplicate (tasks : TaskTable) (caseId : String) (root : TaskRow) : Prop :=
  ¬IsFirst tasks caseId root ∧ ¬(isActive root = true) ∧
    ∀ row, IsDescendant tasks root.id row → ¬(isActive row = true) ∧ ¬(isCompleted row = true)

theorem isRootAmongSeveral_iff :
    IsRootAmongSeveral tasks caseId root ↔
      root ∈ rootsOf tasks caseId ∧ caseId ∈ duplicateCases tasks := by
  rw [IsRootAmongSeveral, ← and_assoc, ← mem_rootsOf, mem_duplicateCases]
  refine and_congr_right fun hroot => ?_
  have hnodup := nodup_ids_rootsOf tasks caseId
  have hother : (∃ other ∈ tasks.rows, isRootOf caseId other = true ∧ other.id ≠ root.id) ↔
      ∃ other ∈ rootsOf tasks caseId, other.id ≠ root.id := by
    simp only [mem_rootsOf, and_assoc]
  rw [hother]
  generalize rootsOf tasks caseId = roots at *
  rcases roots with _ | ⟨first, _ | ⟨second, rest⟩⟩
  · cases hroot
  · obtain rfl := List.mem_singleton.mp hroot
    simp
  · refine iff_of_true ?_ (by simp)
    by_cases hfirst : first.id = root.id
    · refine ⟨second, by simp, fun hsecond => ?_⟩
      simp [hfirst, hsecond] at hnodup
    · exact ⟨first, List.mem_cons_self, hfirst⟩

/-! ## What a run leaves -/

theorem mem_rootIds (hrow : row ∈ tasks.rows) :
    row.id ∈ rootIds tasks (duplicateCases tasks) ↔
      ∃ caseId, IsRootAmongSeveral tasks caseId row := by
  simp only [rootIds, List.mem_flatMap, List.mem_map, isRootAmongSeveral_iff]
  constructor
  · rintro ⟨caseId, hcase, root, hroot, hsame⟩
    obtain rfl := Table.eq_of_unique_eq (mem_rootsOf.mp hroot).1 hrow hsame
    exact ⟨caseId, hroot, hcase⟩
  · rintro ⟨caseId, hroot, hcase⟩
    exact ⟨caseId, hcase, row, hroot, rfl⟩

theorem finalDecision_eq_iff :
    finalDecision tasks root = some dedupedRoot ↔
      isFirstRoot tasks root = false ∧ isSpared tasks root = false := by
  rw [finalDecision]
  split
  case isTrue hkept =>
    refine iff_of_false ?_ (by simpa [or_iff_not_imp_left] using hkept)
    rw [restored]
    split_ifs with hmarked
    · exact nofun
    · exact hmarked
  case isFalse hother =>
    exact iff_of_true rfl (by simpa using hother)

/-- A decision that has been settled is settled. -/
theorem finalDecision_redecided :
    finalDecision (redecided tasks decision) (root.decided (finalDecision tasks root)) =
      finalDecision tasks root := by
  rw [finalDecision, isFirstRoot_redecided, isSpared_redecided]
  rw [finalDecision]
  split
  case isTrue => exact restored_restored root.plannerDecision
  case isFalse => rfl

/-- A script that has been applied finds all decisions settled. -/
theorem finalDecision_afterwards
    (hrow : row ∈ (afterwards tasks true (rootIds tasks (duplicateCases tasks))).rows)
    (hroot : row.id ∈ rootIds tasks (duplicateCases tasks)) :
    finalDecision (afterwards tasks true (rootIds tasks (duplicateCases tasks))) row =
      row.plannerDecision := by
  obtain ⟨old, -, rfl⟩ := List.mem_map.mp hrow
  rw [TaskRow.id_decided] at hroot
  dsimp only
  rw [if_pos ⟨rfl, hroot⟩]
  exact finalDecision_redecided

theorem rootIds_redecided :
    rootIds (redecided tasks decision) (duplicateCases (redecided tasks decision)) =
      rootIds tasks (duplicateCases tasks) := by
  simp only [rootIds, duplicateCases_redecided, rootsOf_redecided, List.map_map]
  rfl

/-- The table that a run with changes leaves. -/
def migrated (tasks : TaskTable) : TaskTable :=
  afterwards tasks true (rootIds tasks (duplicateCases tasks))

theorem mem_rootIds_of_mem_rootsOf (hcase : caseId ∈ duplicateCases tasks)
    (hrow : row ∈ rootsOf tasks caseId) : row.id ∈ rootIds tasks (duplicateCases tasks) :=
  (mem_rootIds (mem_rootsOf.mp hrow).1).mpr
    ⟨caseId, isRootAmongSeveral_iff.mpr ⟨hrow, hcase⟩⟩

/-- In the end exactly the duplicate roots are marked. -/
theorem marked_iff (hroot : IsRootAmongSeveral (migrated tasks) caseId row) :
    row.plannerDecision = some dedupedRoot ↔ IsDuplicate (migrated tasks) caseId row := by
  obtain ⟨hmem, hcase⟩ := isRootAmongSeveral_iff.mp hroot
  have hids := mem_rootIds_of_mem_rootsOf hcase hmem
  rw [migrated, afterwards, rootIds_redecided] at hids
  have hfinal := finalDecision_afterwards (mem_rootsOf.mp hmem).1 hids
  rw [← hfinal]
  refine finalDecision_eq_iff.trans ?_
  rw [← Bool.not_eq_true, ← Bool.not_eq_true]
  change ¬isFirstRoot (migrated tasks) row = true ∧ ¬isSpared (migrated tasks) row = true ↔ _
  rw [isFirstRoot_iff hmem, isSpared_iff, IsDuplicate]
  simp only [not_or, not_exists, not_and]

theorem isFirstRoot_eq_false_of_mem_tail (hrow : row ∈ (rootsOf tasks caseId).tail) :
    isFirstRoot tasks row = false := by
  have hmem := List.mem_of_mem_tail hrow
  rw [← Bool.not_eq_true, isFirstRoot_iff_of_mem_rootsOf hmem]
  have hnodup := nodup_ids_rootsOf tasks caseId
  cases hroots : rootsOf tasks caseId with
  | nil => exact nofun
  | cons first rest =>
      rw [hroots] at hrow hnodup
      rw [List.map_cons, List.nodup_cons] at hnodup
      rw [List.head?_cons, Option.map_some, Option.some.injEq]
      exact fun hsame => hnodup.1 (hsame ▸ List.mem_map_of_mem hrow)

/-- A second run reports no duplicate root. -/
theorem deduped_reported_migrated (tasks : TaskTable) :
    (reported (migrated tasks) true).deduped = [] := by
  rw [reported, List.flatMap_eq_nil_iff]
  intro caseId hcase
  rw [dedupedOfCase, List.flatMap_eq_nil_iff]
  intro row hrow
  have hlater := isFirstRoot_eq_false_of_mem_tail hrow
  have hmem := List.mem_of_mem_tail hrow
  have hids := mem_rootIds_of_mem_rootsOf hcase hmem
  rw [migrated, afterwards, rootIds_redecided] at hids
  have hfinal := finalDecision_afterwards (mem_rootsOf.mp hmem).1 hids
  refine if_pos ?_
  by_cases hspared : isSpared (migrated tasks) row = true
  · exact Or.inl hspared
  · refine Or.inr (hfinal.symm.trans ?_)
    exact finalDecision_eq_iff.mpr ⟨hlater, Bool.eq_false_iff.mpr hspared⟩

/-- A second run changes nothing. -/
theorem migrated_migrated (tasks : TaskTable) : migrated (migrated tasks) = migrated tasks := by
  rw [migrated]
  refine (redecided_congr fun row hrow => ?_).trans (redecided_self _)
  split
  case isTrue hboth =>
    have hids := hboth.2
    rw [migrated, afterwards, rootIds_redecided] at hids
    exact finalDecision_afterwards hrow hids
  case isFalse => rfl

/-- The script ends.  A dry run reports the same roots as one with changes; this one changes
only decisions of roots of cases with several roots, and marks exactly the duplicate ones.
A second run changes nothing and reports no duplicate root. -/
theorem migrate_exact (tasks : TaskTable) :
    ∃ report after dry again,
      migrate tasks true = some (report, after) ∧
      migrate tasks false = some (dry, tasks) ∧
      (dry.kept = report.kept ∧ dry.deduped = report.deduped) ∧
      (∀ caseId row, IsRootAmongSeveral after caseId row →
        (row.plannerDecision = some dedupedRoot ↔ IsDuplicate after caseId row)) ∧
      List.Forall₂ (fun row changed => changed = row ∨
        (∃ caseId, IsRootAmongSeveral tasks caseId row) ∧
          ∃ decision, changed = row.decided decision) tasks.rows after.rows ∧
      migrate after true = some (again, after) ∧ again.deduped = [] := by
  have hagain : migrate (migrated tasks) true =
      some (reported (migrated tasks) true, migrated tasks) := by
    rw [migrate_eq]
    exact congrArg (fun after => some (_, after)) (migrated_migrated tasks)
  refine ⟨reported tasks true, migrated tasks, reported tasks false,
    reported (migrated tasks) true, migrate_eq tasks true, ?_, ⟨rfl, rfl⟩,
    fun _ _ => marked_iff, ?_, hagain, deduped_reported_migrated tasks⟩
  · rw [migrate_eq, afterwards_false]
  · rw [migrated, afterwards, redecided, List.forall₂_map_right_iff, List.forall₂_same]
    intro row hrow
    split
    case isTrue hboth => exact Or.inr ⟨(mem_rootIds hrow).mp hboth.2, _, rfl⟩
    case isFalse => exact Or.inl rfl

end AegisForge.Scripts.MigrateCasesToRounds
