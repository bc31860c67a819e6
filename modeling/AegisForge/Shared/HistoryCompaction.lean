import AegisForge.Core.Closure
import AegisForge.Shared.PlannerWork

/-!
# The compaction of the history, statement by statement

`compact_history` bounds the descriptions, reads the recent tasks, the candidates
and the other tasks, walks from these along their parents and deletes the
candidates that the walk did not meet.  Alone at the store it does what
`TaskQueue.compactHistory` says in one step.
-/

namespace AegisForge.Shared.HistoryCompaction

open AegisForge.Core AegisForge.Concurrency
open AegisForge.Shared.TaskQueue hiding Statement execute send compactHistory

/-! ## Statements -/

inductive Statement
  | queue (statement : TaskQueue.Statement)
  | selectDescriptions
  | updateDescription (taskId description : String)
  | selectRecent (keepRecent : ℕ)
  | selectCandidates (recent : List String) (limit : ℕ)
  | selectOthers (candidates : List String)
  | selectParents (chunk : List String)
  | deleteRows (removable : List String)

def Statement.Reply : Statement → Type
  | .queue statement => statement.Reply
  | .selectDescriptions => List (String × String)
  | .updateDescription _ _ => Unit
  | .selectRecent _ => List String
  | .selectCandidates _ _ => List String
  | .selectOthers _ => List String
  | .selectParents _ => List String
  | .deleteRows _ => ℕ

def withDescription (description : String) (row : TaskRow) : TaskRow := { row with description }

theorem id_withDescription (description : String) (row : TaskRow) :
    (withDescription description row).id = row.id := rfl

/-- The older finished tasks, at most `limit` of them. -/
def candidatesBeside (recent : List String) (limit : ℕ) (tasks : TaskTable) : List String :=
  idsOf ((tasks.rows.filter fun row => isFinished row && decide (row.id ∉ recent)).take limit)

def othersThan (candidates : List String) (tasks : TaskTable) : List String :=
  idsOf (tasks.rows.filter fun row => row.id ∉ candidates)

def withoutRows (removable : List String) (tasks : TaskTable) : TaskTable :=
  tasks.deleteWhere fun row => row.id ∈ removable

def execute : Concurrency.Execution Statement.Reply TaskQueue.World
  | .queue statement, world => TaskQueue.execute statement world
  | .selectDescriptions, world =>
      (world.tasks.rows.map fun row => (row.id, row.description), world)
  | .updateDescription taskId description, world =>
      ((), { world with
        tasks := world.tasks.modify taskId (withDescription description)
          (id_withDescription description) (id_withDescription description) })
  | .selectRecent keepRecent, world => (recentIds world.tasks keepRecent, world)
  | .selectCandidates recent limit, world => (candidatesBeside recent limit world.tasks, world)
  | .selectOthers candidates, world => (othersThan candidates world.tasks, world)
  | .selectParents chunk, world => (parentsOf world.tasks chunk, world)
  | .deleteRows removable, world =>
      ((world.tasks.rows.filter fun row => row.id ∈ removable).length,
        { world with tasks := withoutRows removable world.tasks })

def ask (statement : Statement) : Program Statement.Reply Raised statement.Reply :=
  .call statement

/-! ## The method -/

/-- The updates of the descriptions that are too long. -/
def boundStored : List (String × String) → Program Statement.Reply Raised PUnit
  | [] => .done ⟨⟩
  | (taskId, description) :: rest =>
      if boundedDescription description = description then boundStored rest
      else do
        let _ : Unit ← ask (.updateDescription taskId (boundedDescription description))
        boundStored rest

/-- How many tasks of the frontier are looked up at once. -/
def chunkSize : ℕ := 500

/-- A walk that has not ended after as many chunks as it is given is broken off. -/
def interrupted : Raised := ⟨.operationalError, "interrupted"⟩

/-- The walk from the frontier along parents, which are marked as protected. -/
def protect : ℕ → List String → List String → Program Statement.Reply Raised (List String)
  | _, marked, [] => .done marked
  | 0, _, _ :: _ => .fail interrupted
  | chunks + 1, marked, first :: rest => do
      let parents : List String ← ask (.selectParents ((first :: rest).take chunkSize))
      let new := Closure.unmarked marked parents
      protect chunks (marked ++ new) ((first :: rest).drop chunkSize ++ new)

def deleteRows (removable : List String) : Program Statement.Reply Raised ℕ :=
  ask (.deleteRows removable)

/-- The candidates that are not protected are deleted. -/
def deleteUnprotected (candidates marked : List String) : Program Statement.Reply Raised ℕ :=
  let removable := candidates.filter fun taskId => taskId ∉ marked
  if removable = [] then .done 0 else deleteRows removable

/-- The candidates beside the recent tasks, and what protects them. -/
def deleteOlder (recent : List String) (limit chunks : ℕ) : Program Statement.Reply Raised ℕ := do
  let candidates : List String ← ask (.selectCandidates recent limit)
  if candidates = [] then return 0
  let others : List String ← ask (.selectOthers candidates)
  let marked ← protect chunks [] others
  deleteUnprotected candidates marked

/-- `TaskQueue.compact_history`, with the number of chunks after which its walk is
broken off. -/
def compactHistory (keepRecent limit : ℤ) (chunks : ℕ) : Program Statement.Reply Raised ℕ :=
  if keepRecent ≤ 0 ∨ limit ≤ 0 then .done 0
  else do
    let stored : List (String × String) ← ask .selectDescriptions
    boundStored stored
    let recent : List String ← ask (.selectRecent keepRecent.toNat)
    if recent = [] then return 0
    deleteOlder recent limit.toNat chunks

/-! ## Parents as edges -/

section Parents

variable {tasks : TaskTable} {taskIds : List String} {taskId : String}

/-- The edges from the tasks to their parents. -/
def parentEdges (tasks : TaskTable) : List (String × String) :=
  tasks.rows.filterMap fun row => row.parentTaskId.map fun parentId => (row.id, parentId)

theorem edge_parentEdges_iff {childId parentId : String} :
    Closure.Edge (parentEdges tasks) childId parentId ↔
      ∃ row ∈ tasks.rows, row.id = childId ∧ row.parentTaskId = some parentId := by
  rw [Closure.Edge, parentEdges, List.mem_filterMap]
  constructor
  · rintro ⟨row, hrow, hedge⟩
    obtain ⟨other, hlink, hpair⟩ := Option.map_eq_some_iff.mp hedge
    obtain ⟨hid, rfl⟩ := Prod.mk.inj hpair
    exact ⟨row, hrow, hid, hlink⟩
  · rintro ⟨row, hrow, rfl, hlink⟩
    exact ⟨row, hrow, by rw [hlink, Option.map_some]⟩

theorem length_parentEdges_le (tasks : TaskTable) :
    (parentEdges tasks).length ≤ tasks.rows.length := List.length_filterMap_le _ _

theorem parentsOf_eq_successors (tasks : TaskTable) (taskIds : List String) :
    parentsOf tasks taskIds = Closure.successors (parentEdges tasks) taskIds := by
  rw [parentsOf, Closure.successors, parentEdges]
  induction tasks.rows with
  | nil => rfl
  | cons row rest ih =>
      cases hlink : row.parentTaskId with
      | none => by_cases hrow : row.id ∈ taskIds <;> simp [hlink, hrow, ih]
      | some parentId => by_cases hrow : row.id ∈ taskIds <;> simp [hlink, hrow, ih]

theorem ancestors_eq_within (tasks : TaskTable) (depth : ℕ) (taskIds : List String) :
    ancestors tasks depth taskIds = Closure.within (parentEdges tasks) depth taskIds := by
  induction depth generalizing taskIds with
  | zero => rfl
  | succ depth ih => rw [ancestors, Closure.within, parentsOf_eq_successors, ih]

/-- Protected are the ancestors, at any distance, of the tasks that are no candidates. -/
theorem mem_protectedIds_iff {candidates : List String} :
    taskId ∈ protectedIds tasks candidates ↔
      Closure.Follows (parentEdges tasks) (othersThan candidates tasks) taskId := by
  rw [protectedIds, ancestors_eq_within]
  exact Closure.mem_within_iff (length_parentEdges_le tasks)

end Parents

/-! ## The method alone at the store -/

section Alone

variable {tasks : TaskTable} {world : TaskQueue.World}

theorem run_ask_bind {A : Type} (statement : Statement)
    (rest : statement.Reply → Program Statement.Reply Raised A) (world : TaskQueue.World) :
    ((ask statement).bind rest).run execute world =
      (rest (execute statement world).1).run execute (execute statement world).2 := rfl

/-- An update of a description bounds that of one row. -/
theorem rows_updateDescription {done rest : List TaskRow} {row : TaskRow}
    (hrows : tasks.rows = done ++ row :: rest) :
    (tasks.modify row.id (withDescription (boundedDescription row.description))
      (id_withDescription _) (id_withDescription _)).rows = done ++ boundDescription row :: rest := by
  have hdistinct : ∀ other, other ∈ done ∨ other ∈ rest → other.id ≠ row.id := by
    intro other hother hid
    have hkeys := tasks.primaryKey
    rw [hrows, List.map_append, List.map_cons, List.nodup_append, List.nodup_cons] at hkeys
    rcases hother with hdone | hrest
    · exact hkeys.2.2 other.id (List.mem_map_of_mem hdone) row.id List.mem_cons_self hid
    · exact hkeys.2.1.1 (hid ▸ List.mem_map_of_mem hrest)
  have hkept : ∀ others : List TaskRow, (∀ other ∈ others, other.id ≠ row.id) →
      others.map (fun other => if other.id = row.id then
        withDescription (boundedDescription row.description) other else other) = others := by
    intro others hothers
    conv_rhs => rw [← List.map_id others]
    exact List.map_congr_left fun other hother => if_neg (hothers other hother)
  change tasks.rows.map _ = _
  rw [hrows, List.map_append, List.map_cons, if_pos rfl,
    hkept done fun other hother => hdistinct other (Or.inl hother),
    hkept rest fun other hother => hdistinct other (Or.inr hother)]
  rfl

/-- The updates bound the descriptions of the rows that were read. -/
theorem boundStored_run (todo done : List TaskRow) (hrows : world.tasks.rows = done ++ todo) :
    ∃ after, (boundStored (todo.map fun row => (row.id, row.description))).run execute world =
        (.ok ⟨⟩, { world with tasks := after }) ∧
      after.rows = done ++ todo.map boundDescription := by
  induction todo generalizing world done with
  | nil => exact ⟨world.tasks, rfl, hrows⟩
  | cons row rest ih =>
      rw [List.map_cons, boundStored]
      by_cases hbounded : boundedDescription row.description = row.description
      · have hsame : boundDescription row = row := by
          rw [boundDescription, hbounded]
        obtain ⟨after, hrun, hafter⟩ := @ih world (done ++ [row]) (by rw [hrows]; simp)
        refine ⟨after, ?_, ?_⟩
        · rw [if_pos hbounded]
          exact hrun
        · rw [hafter, List.map_cons, hsame]
          simp
      · have hupdated := rows_updateDescription hrows
        obtain ⟨after, hrun, hafter⟩ :=
          @ih { world with
            tasks := world.tasks.modify row.id (withDescription (boundedDescription row.description))
              (id_withDescription _) (id_withDescription _) } (done ++ [boundDescription row])
            (by rw [hupdated]; simp)
        refine ⟨after, ?_, ?_⟩
        · rw [if_neg hbounded]
          exact hrun
        · rw [hafter, List.map_cons]
          simp

theorem boundStored_run_all (world : TaskQueue.World) :
    (boundStored (world.tasks.rows.map fun row => (row.id, row.description))).run execute world =
      (.ok ⟨⟩, { world with tasks := boundDescriptions world.tasks }) := by
  obtain ⟨after, hrun, hafter⟩ := boundStored_run world.tasks.rows [] rfl
  have hsame : after = boundDescriptions world.tasks := Table.ext hafter
  rw [hrun, hsame]

/-- The walk marks what the worklist over the edges to parents marks. -/
theorem protect_run (chunks : ℕ) (marked frontier : List String) :
    (protect chunks marked frontier).run execute world =
      ((Closure.mark (parentEdges world.tasks) chunkSize chunks marked frontier).elim
        (.error interrupted) .ok, world) := by
  induction chunks generalizing marked frontier with
  | zero => cases frontier <;> rfl
  | succ chunks ih =>
      cases frontier with
      | nil => rfl
      | cons first rest =>
          have hparents : parentsOf world.tasks ((first :: rest).take chunkSize) =
              Closure.successors (parentEdges world.tasks) ((first :: rest).take chunkSize) :=
            parentsOf_eq_successors world.tasks _
          rw [Closure.mark, ← hparents]
          exact ih _ _

/-- The number of deleted rows is the number of ids. -/
theorem length_filter_mem {removable : List String} (hnodup : removable.Nodup)
    (hrows : ∀ taskId ∈ removable, taskId ∈ idsOf tasks.rows) :
    (tasks.rows.filter fun row => row.id ∈ removable).length = removable.length := by
  have hperm : (idsOf (tasks.rows.filter fun row => row.id ∈ removable)).Perm removable := by
    refine (List.perm_ext_iff_of_nodup ?_ hnodup).mpr fun taskId => ?_
    · exact tasks.primaryKey.sublist (List.filter_sublist.map TaskRow.id)
    · rw [idsOf, List.mem_map]
      constructor
      · rintro ⟨row, hrow, rfl⟩
        exact of_decide_eq_true (List.mem_filter.mp hrow).2
      · intro hmem
        obtain ⟨row, hrow, rfl⟩ := List.mem_map.mp (hrows taskId hmem)
        exact ⟨row, List.mem_filter.mpr ⟨hrow, decide_eq_true hmem⟩, rfl⟩
  rw [← hperm.length_eq, idsOf, List.length_map]

/-- What is deleted when the history is compacted. -/
def removableIds (tasks : TaskTable) (keepRecent limit : ℕ) : List String :=
  (historyCandidates tasks keepRecent limit).filter fun taskId =>
    taskId ∉ protectedIds tasks (historyCandidates tasks keepRecent limit)

theorem deleteHistory_eq (tasks : TaskTable) (keepRecent limit : ℕ) :
    deleteHistory tasks keepRecent limit =
      ((removableIds tasks keepRecent limit).length,
        withoutRows (removableIds tasks keepRecent limit) tasks) := rfl

theorem withoutRows_nil (tasks : TaskTable) : withoutRows [] tasks = tasks := by
  apply Table.ext
  simp [withoutRows, Table.deleteWhere]

theorem nodup_removableIds (tasks : TaskTable) (keepRecent limit : ℕ) :
    (removableIds tasks keepRecent limit).Nodup := by
  have hsublist : (historyCandidates tasks keepRecent limit).Sublist (idsOf tasks.rows) :=
    ((List.take_sublist _ _).trans List.filter_sublist).map TaskRow.id
  exact (tasks.primaryKey.sublist hsublist).filter _

theorem exists_row_of_mem_removableIds {keepRecent limit : ℕ} {taskId : String}
    (hmem : taskId ∈ removableIds tasks keepRecent limit) :
    ∃ row ∈ tasks.rows, row.id = taskId ∧ isFinished row = true := by
  obtain ⟨row, hrow, rfl⟩ := List.mem_map.mp (List.mem_filter.mp hmem).1
  obtain ⟨hrow, hfinished⟩ := List.mem_filter.mp (List.mem_of_mem_take hrow)
  exact ⟨row, hrow, rfl, (Bool.and_eq_true_iff.mp hfinished).1⟩

/-- The store without the rows that a compaction of the history deletes. -/
def afterDeletion (keepRecent limit : ℕ) (world : TaskQueue.World) :
    Except Raised ℕ × TaskQueue.World :=
  (.ok (deleteHistory world.tasks keepRecent limit).1,
    { world with tasks := (deleteHistory world.tasks keepRecent limit).2 })

theorem afterDeletion_of_removableIds_eq_nil {keepRecent limit : ℕ}
    (hnone : removableIds world.tasks keepRecent limit = []) :
    afterDeletion keepRecent limit world = (.ok 0, world) := by
  rw [afterDeletion, deleteHistory_eq, hnone, withoutRows_nil]
  rfl

theorem deleteUnprotected_run {marked : List String} {keepRecent limit : ℕ}
    (hmarked : ∀ taskId, taskId ∈ marked ↔
      taskId ∈ protectedIds world.tasks (historyCandidates world.tasks keepRecent limit)) :
    (deleteUnprotected (historyCandidates world.tasks keepRecent limit) marked).run execute world =
      afterDeletion keepRecent limit world := by
  have hremovable : (historyCandidates world.tasks keepRecent limit).filter
      (fun taskId => taskId ∉ marked) = removableIds world.tasks keepRecent limit :=
    List.filter_congr fun taskId _ => by simp [hmarked]
  rw [deleteUnprotected, hremovable]
  by_cases hnone : removableIds world.tasks keepRecent limit = []
  · rw [if_pos hnone, afterDeletion_of_removableIds_eq_nil hnone]
    rfl
  · have hcount := length_filter_mem (nodup_removableIds world.tasks keepRecent limit)
      fun taskId hmem => by
        obtain ⟨row, hrow, hid, -⟩ := exists_row_of_mem_removableIds hmem
        exact List.mem_map.mpr ⟨row, hrow, hid⟩
    rw [if_neg hnone, afterDeletion, deleteHistory_eq, ← hcount]
    rfl

theorem removableIds_of_historyCandidates_eq_nil {keepRecent limit : ℕ}
    (hnone : historyCandidates tasks keepRecent limit = []) :
    removableIds tasks keepRecent limit = [] := by
  rw [removableIds, hnone, List.filter_nil]

theorem historyCandidates_of_recentIds_eq_nil {keepRecent : ℕ} (limit : ℕ) (hkeep : 0 < keepRecent)
    (hnone : recentIds tasks keepRecent = []) : historyCandidates tasks keepRecent limit = [] := by
  rw [historyCandidates, idsOf, List.map_eq_nil_iff]
  have hfinished : tasks.rows.filter isFinished = [] := by
    rw [recentIds, idsOf, List.map_eq_nil_iff, List.take_eq_nil_iff] at hnone
    have hsorted := hnone.resolve_left (Nat.ne_of_gt hkeep)
    rw [← List.length_eq_zero_iff, ← List.length_insertionSort newerOrEqual, hsorted]
    rfl
  have hold : tasks.rows.filter (fun row =>
      isFinished row && decide (row.id ∉ recentIds tasks keepRecent)) = [] := by
    rw [List.filter_eq_nil_iff] at hfinished ⊢
    intro row hrow hmem
    exact hfinished row hrow (Bool.and_eq_true_iff.mp hmem).1
  rw [hold, List.take_nil]

/-- A chunk for every row and every parent ends the walk. -/
theorem deleteOlder_run {keepRecent limit chunks : ℕ}
    (hchunks : 2 * world.tasks.rows.length ≤ chunks) :
    (deleteOlder (recentIds world.tasks keepRecent) limit chunks).run execute world =
      afterDeletion keepRecent limit world := by
  change (if historyCandidates world.tasks keepRecent limit = [] then Program.done 0
    else (ask (.selectOthers (historyCandidates world.tasks keepRecent limit))).bind
      fun others => (protect chunks [] others).bind fun marked =>
        deleteUnprotected (historyCandidates world.tasks keepRecent limit) marked).run execute
          world = _
  by_cases hnone : historyCandidates world.tasks keepRecent limit = []
  · rw [if_pos hnone, afterDeletion_of_removableIds_eq_nil
      (removableIds_of_historyCandidates_eq_nil hnone)]
    rfl
  · obtain ⟨marked, hmark⟩ : ∃ marked, Closure.mark (parentEdges world.tasks) chunkSize chunks []
        (othersThan (historyCandidates world.tasks keepRecent limit) world.tasks) = some marked := by
      refine Closure.exists_mark (by decide) ?_
      have hothers : (othersThan (historyCandidates world.tasks keepRecent limit)
          world.tasks).length ≤ world.tasks.rows.length := by
        rw [othersThan, idsOf, List.length_map]
        exact List.length_filter_le _ _
      have hedges := length_parentEdges_le world.tasks
      omega
    rw [if_neg hnone, run_ask_bind]
    change ((protect chunks [] (othersThan (historyCandidates world.tasks keepRecent limit)
      world.tasks)).bind fun marked =>
        deleteUnprotected (historyCandidates world.tasks keepRecent limit) marked).run execute
          world = _
    rw [Program.run_bind, protect_run, hmark]
    exact deleteUnprotected_run fun taskId =>
      (Closure.mem_mark_iff hmark).trans mem_protectedIds_iff.symm

/-- Alone at the store, the statements do what the one step does. -/
theorem compactHistory_run (keepRecent limit : ℤ) {chunks : ℕ}
    (hchunks : 2 * world.tasks.rows.length ≤ chunks) :
    (compactHistory keepRecent limit chunks).run execute world =
      (.ok (TaskQueue.compactHistory world.tasks keepRecent limit).1,
        { world with tasks := (TaskQueue.compactHistory world.tasks keepRecent limit).2 }) := by
  rw [compactHistory, TaskQueue.compactHistory]
  split
  case isTrue => rfl
  case isFalse hpositive =>
    have hkeep : 0 < keepRecent.toNat := by omega
    have hdelete : ∀ world : TaskQueue.World, 2 * world.tasks.rows.length ≤ chunks →
        (if recentIds world.tasks keepRecent.toNat = [] then Program.done 0
          else deleteOlder (recentIds world.tasks keepRecent.toNat) limit.toNat chunks).run
            execute world = afterDeletion keepRecent.toNat limit.toNat world := by
      intro world hchunks
      by_cases hnone : recentIds world.tasks keepRecent.toNat = []
      · rw [if_pos hnone, afterDeletion_of_removableIds_eq_nil
          (removableIds_of_historyCandidates_eq_nil
            (historyCandidates_of_recentIds_eq_nil _ hkeep hnone))]
        rfl
      · rw [if_neg hnone]
        exact deleteOlder_run hchunks
    change ((boundStored (world.tasks.rows.map fun row => (row.id, row.description))).bind
      fun _ => (ask (.selectRecent keepRecent.toNat)).bind fun recent : List String =>
        if recent = [] then Program.done 0
        else deleteOlder recent limit.toNat chunks).run execute world = _
    rw [Program.run_bind, boundStored_run_all]
    refine hdelete { world with tasks := boundDescriptions world.tasks } ?_
    change 2 * (world.tasks.rows.map boundDescription).length ≤ chunks
    rw [List.length_map]
    exact hchunks

end Alone

end AegisForge.Shared.HistoryCompaction
