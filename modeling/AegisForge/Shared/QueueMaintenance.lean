import AegisForge.Shared.TaskQueue

/-!
# Repair and compaction of the queue

Orphans are deleted with their pending descendants.  Old rows are deleted unless a
row that stays has them among its ancestors, and old results are dropped unless
they belong to a recent branch.
-/

namespace AegisForge.Shared.TaskQueue

open AegisForge.Core AegisForge.Concurrency

variable (tasks : TaskTable)

/-! ## Walks along parents -/

def idsOf (rows : List TaskRow) : List String := rows.map TaskRow.id

/-- The parents of tasks. -/
def parentsOf (taskIds : List String) : List String :=
  (tasks.rows.filter fun row => row.id ∈ taskIds).filterMap TaskRow.parentTaskId

/-- The ancestors of tasks, up to a distance. -/
def ancestors : ℕ → List String → List String
  | 0, _ => []
  | depth + 1, taskIds => parentsOf tasks taskIds ++ ancestors depth (parentsOf tasks taskIds)

/-- The pending children of tasks. -/
def pendingChildren (taskIds : List String) : List String :=
  idsOf (tasks.rows.filter fun row => row.isPending && row.parentTaskId.any (· ∈ taskIds))

/-- The tasks with their pending descendants, down to a distance. -/
def withPendingDescendants : ℕ → List String → List String
  | 0, taskIds => taskIds
  | depth + 1, taskIds => taskIds ++ withPendingDescendants depth (pendingChildren tasks taskIds)

/-! ## Orphans -/

/-- A row of `active_orphans`. -/
def isActiveOrphan (row : TaskRow) : Bool :=
  (row.isPending || row.isRunning) &&
    row.parentTaskId.any fun parentId => (tasks.lookup parentId).isNone

/-- The tasks that `repair_active_orphans` deletes; chains of pending tasks are no
longer than the table. -/
def doomed : List String :=
  withPendingDescendants tasks tasks.rows.length
    (idsOf (tasks.rows.filter fun row => isActiveOrphan tasks row && row.isPending))

/-- `TaskQueue.repair_active_orphans`. -/
def repairActiveOrphans : ℕ × TaskTable :=
  let deleted := tasks.rows.filter fun row => row.id ∈ doomed tasks
  (deleted.length, tasks.deleteWhere fun row => row.id ∈ doomed tasks)

/-! ## History -/

def isFinished (row : TaskRow) : Bool := row.status ∈ [.completed, .failed]

/-- `ORDER BY COALESCE(finished_at, created_at) DESC, id DESC`. -/
def newerOrEqual (left right : TaskRow) : Prop :=
  let leftTime := left.finishedAt.getD left.createdAt
  let rightTime := right.finishedAt.getD right.createdAt
  rightTime < leftTime ∨ rightTime = leftTime ∧ right.id ≤ left.id

instance : DecidableRel newerOrEqual := fun _ _ => inferInstanceAs (Decidable (_ ∨ _ ∧ _))

def boundDescription (row : TaskRow) : TaskRow :=
  { row with description := boundedDescription row.description }

theorem id_boundDescription (row : TaskRow) : (boundDescription row).id = row.id := rfl

/-- The newest finished tasks. -/
def recentIds (keepRecent : ℕ) : List String :=
  idsOf (((tasks.rows.filter isFinished).insertionSort newerOrEqual).take keepRecent)

/-- The older finished tasks, at most `limit` of them. -/
def historyCandidates (keepRecent limit : ℕ) : List String :=
  idsOf ((tasks.rows.filter fun row =>
    isFinished row && decide (row.id ∉ recentIds tasks keepRecent)).take limit)

/-- The ancestors of the tasks that are no candidates. -/
def protectedIds (candidates : List String) : List String :=
  ancestors tasks tasks.rows.length
    (idsOf (tasks.rows.filter fun row => row.id ∉ candidates))

/-- The deletion of `compact_history`. -/
def deleteHistory (keepRecent limit : ℕ) : ℕ × TaskTable :=
  let candidates := historyCandidates tasks keepRecent limit
  let removable := candidates.filter fun taskId => taskId ∉ protectedIds tasks candidates
  (removable.length, tasks.deleteWhere fun row => row.id ∈ removable)

/-- `TaskQueue.compact_history`. -/
def compactHistory (keepRecent limit : ℤ) : ℕ × TaskTable :=
  if keepRecent ≤ 0 ∨ limit ≤ 0 then (0, tasks)
  else
    deleteHistory (tasks.mapRows boundDescription id_boundDescription id_boundDescription)
      keepRecent.toNat limit.toNat

/-! ## Results -/

/-- The decisions of a planner that keep a task open. -/
def openDecisions : List String := ["CONTINUE", "REFINE", "VERIFY", "BRANCH", "ESCALATE"]

/-- A task that a planner may still come back to. -/
def isFrontier (row : TaskRow) : Bool :=
  row.isPending || row.isRunning ||
    (row.status = .completed &&
      match row.plannerDecision with
      | none => true
      | some decision =>
          decision ∈ openDecisions && tasks.rows.all fun child => child.parentTaskId ≠ some row.id)

/-- The frontier and its ancestors up to a distance. -/
def keptResults (keepAncestorDepth : ℕ) : List String :=
  let frontier := idsOf (tasks.rows.filter (isFrontier tasks))
  frontier ++ ancestors tasks keepAncestorDepth frontier

/-- The completed tasks whose results are dropped. -/
def resultCandidates (cutoff : String) (keepAncestorDepth limit : ℕ) : List String :=
  idsOf ((tasks.rows.filter fun row =>
    row.status = .completed && row.result.isSome && row.finishedAt.any (· < cutoff) &&
      decide (row.id ∉ keptResults tasks keepAncestorDepth)).take limit)

def dropResult (taskIds : List String) (row : TaskRow) : TaskRow :=
  if row.id ∈ taskIds then { row with result := none } else row

theorem id_dropResult (taskIds : List String) (row : TaskRow) :
    (dropResult taskIds row).id = row.id := by
  rw [dropResult]
  split <;> rfl

def overflowError (message : String) : Raised := ⟨.overflowError, message⟩

/-- `TaskQueue.compact_completed_results` at the time `now`. -/
def compactCompletedResults (olderThanDays keepAncestorDepth limit : ℤ) (now : DateTime) :
    Except Raised (ℕ × TaskTable) := do
  raiseUnless (0 ≤ olderThanDays) (valueError "older_than_days must be >= 0")
  raiseUnless (0 ≤ keepAncestorDepth) (valueError "keep_ancestor_depth must be >= 0")
  if limit ≤ 0 then return (0, tasks)
  raiseUnless (olderThanDays ≤ 999999999)
    (overflowError s!"days={olderThanDays}; must have magnitude <= 999999999")
  let cutoff ← orRaise (overflowError "date value out of range") (now.addDays? (-olderThanDays))
  let taskIds := resultCandidates tasks cutoff.isoText keepAncestorDepth.toNat limit.toNat
  return (taskIds.length,
    tasks.mapRows (dropResult taskIds) (id_dropResult taskIds) (id_dropResult taskIds))

/-- An accepted compaction drops the results of the tasks that it selected, unless its
limit leaves it nothing to do. -/
theorem compactCompletedResults_cases {tasks after : TaskTable}
    {olderThanDays keepAncestorDepth limit : ℤ} {now : DateTime} {count : ℕ}
    (hcompact : compactCompletedResults tasks olderThanDays keepAncestorDepth limit now =
      .ok (count, after)) :
    (limit ≤ 0 ∧ after = tasks) ∨ (0 < limit ∧ ∃ cutoff,
      now.addDays? (-olderThanDays) = some cutoff ∧
        after = tasks.mapRows
          (dropResult (resultCandidates tasks cutoff.isoText keepAncestorDepth.toNat limit.toNat))
          (id_dropResult _) (id_dropResult _)) := by
  rw [compactCompletedResults] at hcompact
  obtain ⟨-, hcompact⟩ := raiseUnless_bind_eq_ok hcompact
  obtain ⟨-, hcompact⟩ := raiseUnless_bind_eq_ok hcompact
  split at hcompact
  case isTrue hidle =>
    obtain ⟨-, rfl⟩ := Prod.mk.inj (Except.ok.inj hcompact)
    exact Or.inl ⟨hidle, rfl⟩
  case isFalse hbusy =>
    obtain ⟨-, hcompact⟩ := raiseUnless_bind_eq_ok hcompact
    obtain ⟨cutoff, hcutoff, hcompact⟩ := orRaise_bind_eq_ok hcompact
    obtain ⟨-, rfl⟩ := Prod.mk.inj (Except.ok.inj hcompact)
    exact Or.inr ⟨not_le.mp hbusy, cutoff, hcutoff, rfl⟩

end AegisForge.Shared.TaskQueue
