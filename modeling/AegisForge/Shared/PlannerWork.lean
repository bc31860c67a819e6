import AegisForge.Core.Ranking
import AegisForge.Shared.CaseInheritance

/-!
# Work of the planner and old rows

The planner is offered the completed tasks that it has not decided about, or that
it keeps open and that have no child.  The compaction of the history chooses its
rows by age alone: a task that has no child protects nothing and is protected by
nothing, so it stays only while it is recent or behind the limit.
-/

namespace AegisForge.Shared.TaskQueue

open AegisForge.Core AegisForge.Concurrency

variable (tasks : TaskTable)

/-! ## Decisions -/

def TaskRow.decided (decision : Option String) (row : TaskRow) : TaskRow :=
  { row with plannerDecision := decision }

theorem TaskRow.id_decided (decision : Option String) (row : TaskRow) :
    (row.decided decision).id = row.id := rfl

/-- `TaskQueue.mark_planner_decision`. -/
def markPlannerDecision (taskId : String) (decision : Option String) : TaskTable :=
  tasks.modify taskId (TaskRow.decided decision) (TaskRow.id_decided decision)
    (TaskRow.id_decided decision)

/-- The operations of the queue and the decisions of the planner. -/
inductive PlannedOperation
  | queue (operation : Operation)
  | markPlannerDecision (taskId : String) (decision : Option String)

/-- The store after an operation or a decision, with nobody else at the store. -/
def perform (world : World) : PlannedOperation → World
  | .queue operation => operate world operation
  | .markPlannerDecision taskId decision =>
      { world with tasks := markPlannerDecision world.tasks taskId decision }

/-- `uuid4` answers ids that have not been used. -/
def PerformsUnused (world : World) : PlannedOperation → Prop
  | .queue operation => AnswersUnused world operation
  | .markPlannerDecision _ _ => True

instance (world : World) : ∀ operation, Decidable (PerformsUnused world operation)
  | .queue operation => inferInstanceAs (Decidable (AnswersUnused world operation))
  | .markPlannerDecision _ _ => inferInstanceAs (Decidable True)

/-! ## What the planner is offered -/

/-- `NOT EXISTS (SELECT 1 FROM queue c WHERE c.parent_task_id = q.id)`. -/
def isChildless (row : TaskRow) : Bool :=
  tasks.rows.all fun child => child.parentTaskId ≠ some row.id

/-- `TaskQueue.planning_tasks`; `evaluationOnly` is the column of that name, which
only the insertion of a task writes. -/
def planningTasks (evaluationOnly : String → Bool) : List TaskRow :=
  (tasks.rows.filter fun row => row.isFailed && !evaluationOnly row.id) ++
  (tasks.rows.filter fun row =>
    row.status = .completed && !evaluationOnly row.id && row.plannerDecision.isNone &&
      isChildless tasks row) ++
  tasks.rows.filter fun row =>
    row.status = .completed && !evaluationOnly row.id &&
      row.plannerDecision.any (· ∈ openDecisions) && isChildless tasks row

/-! ## Old rows -/

/-- How many finished tasks are newer than one. -/
def newerFinished (row : TaskRow) : ℕ :=
  tasks.rows.countP fun other => isFinished other && (newerOrEqual other row && other.id ≠ row.id)

/-- A finished task that is not among the `keepRecent` newest. -/
def isOld (keepRecent : ℕ) (row : TaskRow) : Bool :=
  isFinished row && keepRecent ≤ newerFinished tasks row

/-- The tasks that were stored before one. -/
def storedBefore (row : TaskRow) : List TaskRow := tasks.rows.takeWhile fun other => other.id ≠ row.id

/-- An old task before which fewer than `limit` old ones are stored. -/
def IsDisposable (keepRecent limit : ℕ) (row : TaskRow) : Prop :=
  isOld tasks keepRecent row = true ∧
    (storedBefore tasks row).countP (isOld tasks keepRecent) < limit

instance (keepRecent limit : ℕ) (row : TaskRow) :
    Decidable (IsDisposable tasks keepRecent limit row) := inferInstanceAs (Decidable (_ ∧ _))

variable {tasks}

/-! ## The order of finished tasks -/

instance : Std.Total newerOrEqual where
  total left right := by
    rcases lt_trichotomy (left.finishedAt.getD left.createdAt)
      (right.finishedAt.getD right.createdAt) with hlt | heq | hgt
    · exact Or.inr (Or.inl hlt)
    · rcases le_total right.id left.id with hid | hid
      · exact Or.inl (Or.inr ⟨heq.symm, hid⟩)
      · exact Or.inr (Or.inr ⟨heq, hid⟩)
    · exact Or.inl (Or.inl hgt)

instance : IsTrans TaskRow newerOrEqual where
  trans first second third := by
    rintro (hfirst | ⟨hfirst, hid⟩) (hsecond | ⟨hsecond, hid'⟩)
    · exact Or.inl (hsecond.trans hfirst)
    · exact Or.inl (hsecond ▸ hfirst)
    · exact Or.inl (hfirst ▸ hsecond)
    · exact Or.inr ⟨hsecond.trans hfirst, hid'.trans hid⟩

theorem id_eq_of_newerOrEqual {left right : TaskRow} (hforth : newerOrEqual left right)
    (hback : newerOrEqual right left) : left.id = right.id := by
  rcases hforth with hlt | ⟨heq, hid⟩
  · rcases hback with hgt | ⟨heq, -⟩
    · exact absurd hgt (lt_asymm hlt)
    · exact absurd heq (ne_of_gt hlt)
  · rcases hback with hgt | ⟨-, hid'⟩
    · exact absurd heq (ne_of_gt hgt)
    · exact le_antisymm hid' hid

theorem nodup_rows (tasks : TaskTable) : tasks.rows.Nodup := tasks.primaryKey.of_map TaskRow.id

/-- A row is among some rows of the table if its id is. -/
theorem id_mem_idsOf {rows : List TaskRow} (hrows : ∀ row ∈ rows, row ∈ tasks.rows) {row : TaskRow}
    (hrow : row ∈ tasks.rows) : row.id ∈ idsOf rows ↔ row ∈ rows := by
  refine ⟨fun hid => ?_, fun hmem => List.mem_map_of_mem hmem⟩
  obtain ⟨other, hother, hsame⟩ := List.mem_map.mp hid
  rw [← Table.eq_of_unique_eq (hrows other hother) hrow hsame]
  exact hother

/-- What is stored before a row of the table. -/
theorem exists_storedAfter {row : TaskRow} (hrow : row ∈ tasks.rows) :
    ∃ after, tasks.rows = storedBefore tasks row ++ row :: after := by
  have hdrop : tasks.rows.dropWhile (fun other => other.id ≠ row.id) ≠ [] := by
    rw [ne_eq, List.dropWhile_eq_nil_iff]
    intro hall
    simpa using hall row hrow
  obtain ⟨first, after, hfirst⟩ := List.exists_cons_of_ne_nil hdrop
  have hsplit : tasks.rows = storedBefore tasks row ++ first :: after := by
    rw [← hfirst, storedBefore, List.takeWhile_append_dropWhile]
  have hid : first.id = row.id := by
    have hhead := List.head_dropWhile_not (fun other : TaskRow => other.id ≠ row.id) hdrop
    simp only [hfirst, List.head_cons] at hhead
    simpa using hhead
  have hmem : first ∈ tasks.rows := by
    rw [hsplit]
    simp
  rw [Table.eq_of_unique_eq hmem hrow hid] at hsplit
  exact ⟨after, hsplit⟩

/-- The rows that a condition and a limit choose. -/
theorem mem_take_filter_rows {condition : TaskRow → Bool} {limit : ℕ} {row : TaskRow}
    (hrow : row ∈ tasks.rows) :
    row.id ∈ idsOf ((tasks.rows.filter condition).take limit) ↔
      condition row = true ∧ (storedBefore tasks row).countP condition < limit := by
  have hmem : ∀ other ∈ (tasks.rows.filter condition).take limit, other ∈ tasks.rows :=
    fun other hother => (List.mem_filter.mp (List.mem_of_mem_take hother)).1
  rw [id_mem_idsOf hmem hrow]
  cases hcondition : condition row with
  | false =>
      refine iff_of_false (fun hchosen => ?_) fun hchosen => Bool.false_ne_true hchosen.1
      rw [(List.mem_filter.mp (List.mem_of_mem_take hchosen)).2] at hcondition
      cases hcondition
  | true =>
      obtain ⟨after, hsplit⟩ := exists_storedAfter hrow
      rw [mem_take_filter_iff hsplit (nodup_rows tasks) hcondition]
      exact (and_iff_right rfl).symm

/-! ## Candidates -/

section Candidates

variable {row : TaskRow} (keepRecent limit : ℕ)

theorem rank_eq_newerFinished (hrow : row ∈ tasks.rows) :
    rank newerOrEqual (tasks.rows.filter isFinished) row = newerFinished tasks row := by
  rw [rank, newerFinished, List.countP_filter]
  apply List.countP_congr
  intro other hother
  have hid : other ≠ row ↔ other.id ≠ row.id :=
    ⟨fun hne hsame => hne (Table.eq_of_unique_eq hother hrow hsame), fun hne hsame => hne (hsame ▸ rfl)⟩
  simp [hid, and_comm]

theorem mem_recentIds (hrow : row ∈ tasks.rows) (hfinished : isFinished row = true) :
    row.id ∈ recentIds tasks keepRecent ↔ newerFinished tasks row < keepRecent := by
  have hmem : ∀ other ∈ ((tasks.rows.filter isFinished).insertionSort newerOrEqual).take keepRecent,
      other ∈ tasks.rows := fun other hother =>
    (List.mem_filter.mp ((List.mem_insertionSort _).mp (List.mem_of_mem_take hother))).1
  rw [recentIds, id_mem_idsOf hmem hrow, ← rank_eq_newerFinished hrow]
  refine mem_take_insertionSort_iff newerOrEqual ((nodup_rows tasks).filter _) ?_
    (List.mem_filter.mpr ⟨hrow, hfinished⟩) keepRecent
  intro left hleft right hright hforth hback
  exact Table.eq_of_unique_eq (List.mem_filter.mp hleft).1 (List.mem_filter.mp hright).1
    (id_eq_of_newerOrEqual hforth hback)

theorem isOld_iff (hrow : row ∈ tasks.rows) :
    (isFinished row && decide (row.id ∉ recentIds tasks keepRecent)) = isOld tasks keepRecent row := by
  rw [isOld]
  cases hfinished : isFinished row with
  | false => rfl
  | true =>
      rw [Bool.true_and, Bool.true_and, decide_eq_decide, mem_recentIds keepRecent hrow hfinished,
        Nat.not_lt]

theorem mem_historyCandidates (hrow : row ∈ tasks.rows) :
    row.id ∈ historyCandidates tasks keepRecent limit ↔
      IsDisposable tasks keepRecent limit row := by
  have hfilter : (tasks.rows.filter fun row =>
      isFinished row && decide (row.id ∉ recentIds tasks keepRecent)) =
        tasks.rows.filter (isOld tasks keepRecent) :=
    List.filter_congr fun other hother => isOld_iff keepRecent hother
  rw [historyCandidates, hfilter]
  exact mem_take_filter_rows hrow

end Candidates

/-! ## What is deleted -/

section Deletion

variable {row : TaskRow}

theorem mem_parentsOf {taskIds : List String} {parentId : String} :
    parentId ∈ parentsOf tasks taskIds ↔
      ∃ child ∈ tasks.rows, child.id ∈ taskIds ∧ child.parentTaskId = some parentId := by
  simp [parentsOf, and_assoc]

/-- An ancestor has a child. -/
theorem exists_child_of_mem_ancestors {depth : ℕ} {taskIds : List String} {taskId : String}
    (hancestor : taskId ∈ ancestors tasks depth taskIds) :
    ∃ child ∈ tasks.rows, child.parentTaskId = some taskId := by
  induction depth generalizing taskIds with
  | zero => cases hancestor
  | succ depth ih =>
      rw [ancestors, List.mem_append] at hancestor
      rcases hancestor with hparent | hdeeper
      · obtain ⟨child, hchild, -, hlink⟩ := mem_parentsOf.mp hparent
        exact ⟨child, hchild, hlink⟩
      · exact ih hdeeper

theorem isChildless_iff : isChildless tasks row = true ↔
    ∀ child ∈ tasks.rows, child.parentTaskId ≠ some row.id := by
  simp [isChildless]

/-- A task without children stays unless it is a candidate. -/
theorem mem_deleteHistory_of_isChildless (hrow : row ∈ tasks.rows)
    (hchildless : isChildless tasks row = true) (keepRecent limit : ℕ) :
    row ∈ (deleteHistory tasks keepRecent limit).2.rows ↔
      ¬IsDisposable tasks keepRecent limit row := by
  have hunprotected : row.id ∉ protectedIds tasks (historyCandidates tasks keepRecent limit) := by
    intro hprotected
    obtain ⟨child, hchild, hlink⟩ := exists_child_of_mem_ancestors hprotected
    exact isChildless_iff.mp hchildless child hchild hlink
  rw [deleteHistory, Table.mem_deleteWhere, ← mem_historyCandidates keepRecent limit hrow]
  simp [hrow, hunprotected]

end Deletion

/-! ## Descriptions are bounded first -/

section Bounded

variable (tasks)

/-- The table with bounded descriptions. -/
def boundDescriptions : TaskTable :=
  tasks.mapRows boundDescription id_boundDescription id_boundDescription

variable {tasks} {row : TaskRow}

theorem newerFinished_boundDescriptions (row : TaskRow) :
    newerFinished (boundDescriptions tasks) (boundDescription row) = newerFinished tasks row := by
  rw [newerFinished, boundDescriptions, Table.mapRows, List.countP_map]
  rfl

theorem isOld_boundDescriptions (keepRecent : ℕ) :
    isOld (boundDescriptions tasks) keepRecent ∘ boundDescription = isOld tasks keepRecent := by
  funext row
  rw [Function.comp_apply, isOld, newerFinished_boundDescriptions]
  rfl

theorem isDisposable_boundDescriptions {keepRecent limit : ℕ} :
    IsDisposable (boundDescriptions tasks) keepRecent limit (boundDescription row) ↔
      IsDisposable tasks keepRecent limit row := by
  have hstored : storedBefore (boundDescriptions tasks) (boundDescription row) =
      (storedBefore tasks row).map boundDescription := by
    rw [storedBefore, boundDescriptions, Table.mapRows, List.takeWhile_map]
    rfl
  have hold : isOld (boundDescriptions tasks) keepRecent (boundDescription row) =
      isOld tasks keepRecent row := congrFun (isOld_boundDescriptions keepRecent) row
  rw [IsDisposable, IsDisposable, hstored, List.countP_map, isOld_boundDescriptions, hold]

theorem isChildless_boundDescriptions :
    isChildless (boundDescriptions tasks) (boundDescription row) = isChildless tasks row := by
  rw [isChildless, boundDescriptions, Table.mapRows, List.all_map]
  rfl

theorem boundDescription_mem (hrow : row ∈ tasks.rows) :
    boundDescription row ∈ (boundDescriptions tasks).rows :=
  List.mem_map_of_mem hrow

end Bounded

/-! ## Offered tasks after a compaction -/

section Offered

variable {row : TaskRow} {evaluationOnly : String → Bool}

/-- The planner has not decided about the task, or keeps it open. -/
def isOpenForPlanner (row : TaskRow) : Bool := row.plannerDecision.all (· ∈ openDecisions)

theorem mem_planningTasks_iff (hcompleted : row.status = .completed) :
    row ∈ planningTasks tasks evaluationOnly ↔
      row ∈ tasks.rows ∧ evaluationOnly row.id = false ∧ isOpenForPlanner row = true ∧
        isChildless tasks row = true := by
  have hfailed : row.isFailed = false := by
    rw [TaskRow.isFailed, hcompleted]
    rfl
  rw [planningTasks, isOpenForPlanner]
  cases hdecision : row.plannerDecision with
  | none => simp [hcompleted, hfailed, hdecision]
  | some decision => simp [hcompleted, hfailed, hdecision, and_assoc]

end Offered

/-- The completed tasks that the planner is offered are offered after a compaction. -/
def KeepsPlannerWork (tasks : TaskTable) (evaluationOnly : String → Bool)
    (keepRecent limit : ℤ) : Prop :=
  ∀ row ∈ planningTasks tasks evaluationOnly, row.status = .completed →
    row.id ∈ idsOf (planningTasks (compactHistory tasks keepRecent limit).2 evaluationOnly)

instance (tasks : TaskTable) (evaluationOnly : String → Bool) (keepRecent limit : ℤ) :
    Decidable (KeepsPlannerWork tasks evaluationOnly keepRecent limit) :=
  inferInstanceAs (Decidable (∀ row ∈ planningTasks tasks evaluationOnly, _ → _))

/-- Two tasks are completed one after the other, and the planner has seen neither. -/
def Sample.completedTwice : List Operation :=
  [.call (.add (Sample.task "task-1" none false)),
    .call (.claim "worker-1" none Sample.noon),
    .call (.finish "worker-1" "task-1" (some (.ok "done")) Sample.noon),
    .call (.add (Sample.task "task-2" none false)),
    .call (.claim "worker-1" none Sample.noon),
    .call (.finish "worker-1" "task-2" (some (.ok "done")) Sample.later)]

def Sample.undecided : World := run operate (World.empty Table.empty []) Sample.completedTwice

def Sample.firstTask : TaskRow :=
  (TaskRow.claimed (NewTask.row (Sample.task "task-1" none false) none none none) "worker-1"
    Sample.noon.isoText).reported .completed (some "done") Sample.noon.isoText

end AegisForge.Shared.TaskQueue
