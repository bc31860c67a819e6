import AegisForge.Shared.TaskQueue

/-!
# What the statements of the queue do to a task

A statement leaves the row of a task as it is, adds it, or changes it in one of
four ways, each with the condition under which it does so.
-/

namespace AegisForge.Shared.TaskQueue

open AegisForge.Core AegisForge.Concurrency

variable {tasks : TaskTable} {taskId : String} {row : TaskRow}

/-! ## Claiming -/

theorem mem_byCreation {rows : List TaskRow} : row ∈ byCreation rows ↔ row ∈ rows :=
  List.mem_insertionSort _

theorem isPending_of_isClaimable {role : Option String} (hclaimable : isClaimable tasks role row = true) :
    row.isPending = true := by
  rw [isClaimable, Bool.and_eq_true, Bool.and_eq_true] at hclaimable
  exact hclaimable.1.1

/-- A claim takes the first claimable task, or there is none. -/
theorem claimNext_cases (worker : String) (role : Option String) (startedAt : String)
    (tasks : TaskTable) :
    (claimNext worker role startedAt tasks = (none, tasks) ∧
        ∀ row ∈ tasks.rows, isClaimable tasks role row = false) ∨
      ∃ row ∈ tasks.rows, isClaimable tasks role row = true ∧
        claimNext worker role startedAt tasks =
          (some row.id, tasks.modify row.id (fun row => row.claimed worker startedAt)
            (TaskRow.id_claimed worker startedAt) (TaskRow.id_claimed worker startedAt)) := by
  rw [claimNext]
  cases hhead : (byCreation (tasks.rows.filter (isClaimable tasks role))).head? with
  | none =>
      refine Or.inl ⟨rfl, fun row hrow => ?_⟩
      have hnone := List.head?_eq_none_iff.mp hhead
      by_contra hclaimable
      have hmem : row ∈ byCreation (tasks.rows.filter (isClaimable tasks role)) :=
        mem_byCreation.mpr (List.mem_filter.mpr ⟨hrow, by simpa using hclaimable⟩)
      rw [hnone] at hmem
      cases hmem
  | some row =>
      obtain ⟨hrow, hclaimable⟩ :=
        List.mem_filter.mp (mem_byCreation.mp (List.mem_of_mem_head? hhead))
      refine Or.inr ⟨row, hrow, hclaimable, ?_⟩
      have hpending : (tasks.lookup row.id).any TaskRow.isPending = true := by
        rw [Table.lookup_of_mem hrow]
        exact isPending_of_isClaimable hclaimable
      simp only [Table.updateWhere, if_pos hpending, if_true]

/-! ## Recovering -/

theorem lookup_recover (taskIds : List String) (tasks : TaskTable) (taskId : String) :
    (recover taskIds tasks).2.lookup taskId = (tasks.lookup taskId).map fun row =>
      if taskId ∈ taskIds ∧ row.isRunning = true then row.recovered else row := by
  induction taskIds generalizing tasks with
  | nil => simp [recover]
  | cons first rest ih =>
      rw [recover]
      change (recover rest _).2.lookup taskId = _
      rw [ih, Table.lookup_updateWhere, Option.map_map]
      congr 1
      funext row
      rw [Function.comp_apply]
      by_cases hfirst : taskId = first
      · by_cases hrunning : row.isRunning = true
        · have hstopped : row.recovered.isRunning = false := rfl
          simp [hfirst, hrunning, hstopped]
        · simp [hrunning]
      · simp [hfirst]

theorem mem_recover {taskIds : List String} :
    taskId ∈ (recover taskIds tasks).1 ↔
      taskId ∈ taskIds ∧ ∃ row, tasks.lookup taskId = some row ∧ row.isRunning = true := by
  induction taskIds generalizing tasks with
  | nil => simp [recover]
  | cons first rest ih =>
      rw [recover]
      generalize hupdate : tasks.updateWhere first TaskRow.isRunning TaskRow.recovered
        TaskRow.id_recovered TaskRow.id_recovered = update
      have htrue : update.1 = true ↔ ∃ row, tasks.lookup first = some row ∧ row.isRunning = true := by
        rw [← hupdate]
        exact Table.updateWhere_eq_true_iff
      have hlookup : update.2.lookup taskId = (tasks.lookup taskId).map fun row =>
          if taskId = first ∧ row.isRunning = true then row.recovered else row := by
        rw [← hupdate]
        exact Table.lookup_updateWhere tasks first taskId
      have hrest := @ih update.2
      rw [hlookup] at hrest
      change taskId ∈ (if update.1 = true then first :: (recover rest update.2).1
        else (recover rest update.2).1) ↔ _
      by_cases hfirst : taskId = first
      · subst hfirst
        cases hfound : tasks.lookup taskId with
        | none => simp_all
        | some row =>
            by_cases hrunning : row.isRunning = true
            · simp_all
            · simp_all
      · have hsame : taskId ∈ (if update.1 = true then first :: (recover rest update.2).1
            else (recover rest update.2).1) ↔ taskId ∈ (recover rest update.2).1 := by
          split <;> simp [hfirst]
        rw [hsame, hrest]
        simp [hfirst]

/-! ## Steps of a row -/

abbrev QueueEvent := Event Statement World

/-- The event is the claim of the task by the worker. -/
def IsClaim (worker taskId : String) (event : QueueEvent) : Prop :=
  ∃ role startedAt, event.statement = .claimNext worker role startedAt ∧
    (claimNext worker role startedAt event.found.tasks).1 = some taskId

/-- The event returns the task to the pending ones. -/
def IsRelease (taskId : String) (event : QueueEvent) : Prop :=
  (event.statement = .requeue taskId ∧ (requeue taskId event.found.tasks).1 = true) ∨
    ∃ taskIds, event.statement = .recover taskIds ∧
      taskId ∈ (recover taskIds event.found.tasks).1

/-- The event stores an outcome of the task. -/
def IsReport (taskId : String) (event : QueueEvent) : Prop :=
  ∃ status result finishedAt, event.statement = .report taskId status result finishedAt ∧
    (report taskId status result finishedAt event.found.tasks).1 = true

/-- The row of a task before and after an event. -/
inductive RowStep (taskId : String) (event : QueueEvent) :
    Option TaskRow → Option TaskRow → Prop
  | same (row : Option TaskRow) : RowStep taskId event row row
  | added {row : TaskRow} (hstatement : event.statement = .insertTask row) :
      RowStep taskId event none (some row)
  | claimed {row : TaskRow} {worker startedAt : String} {role : Option String}
      (hstatement : event.statement = .claimNext worker role startedAt)
      (hreply : (claimNext worker role startedAt event.found.tasks).1 = some taskId)
      (hclaimable : isClaimable event.found.tasks role row = true) :
      RowStep taskId event (some row) (some (row.claimed worker startedAt))
  | recovered {row : TaskRow} {taskIds : List String}
      (hstatement : event.statement = .recover taskIds)
      (hreply : taskId ∈ (recover taskIds event.found.tasks).1)
      (hrunning : row.isRunning = true) : RowStep taskId event (some row) (some row.recovered)
  | requeued {row : TaskRow} (hstatement : event.statement = .requeue taskId)
      (hreply : (requeue taskId event.found.tasks).1 = true) (hfailed : row.isFailed = true) :
      RowStep taskId event (some row) (some row.requeued)
  | reported {row : TaskRow} {status : TaskStatus} {result : Option String} {finishedAt : String}
      (hstatement : event.statement = .report taskId status result finishedAt)
      (hreply : (report taskId status result finishedAt event.found.tasks).1 = true)
      (hrunning : row.isRunning = true) :
      RowStep taskId event (some row) (some (row.reported status result finishedAt))

/-- The step of a row that a conditional update changes, or does not. -/
theorem rowStep_updateWhere {event : QueueEvent} {wanted : String} {condition : TaskRow → Bool}
    {change : TaskRow → TaskRow} {hkey hunique : ∀ row, (change row).id = row.id}
    (hchange : ∀ row, wanted = taskId → tasks.lookup taskId = some row → condition row = true →
      (tasks.updateWhere wanted condition change hkey hunique).1 = true →
        RowStep taskId event (some row) (some (change row))) :
    RowStep taskId event (tasks.lookup taskId)
      ((tasks.updateWhere wanted condition change hkey hunique).2.lookup taskId) := by
  rw [Table.lookup_updateWhere]
  cases hfound : tasks.lookup taskId with
  | none => exact RowStep.same none
  | some row =>
      rw [Option.map_some]
      split
      case isTrue hcondition =>
        obtain ⟨rfl, hcondition⟩ := hcondition
        exact hchange row rfl hfound hcondition
          (Table.updateWhere_eq_true_iff.mpr ⟨row, hfound, hcondition⟩)
      case isFalse => exact RowStep.same _

/-- Every statement steps every row. -/
theorem rowStep_after (taskId : String) (event : QueueEvent) :
    RowStep taskId event (event.found.tasks.lookup taskId)
      ((event.after execute).tasks.lookup taskId) := by
  obtain ⟨process, statement, found⟩ := event
  cases statement with
  | insertTask row =>
      change RowStep _ _ _ ((execute (.insertTask row) found).2.tasks.lookup taskId)
      rw [execute]
      split
      case h_1 => exact RowStep.same _
      case h_2 after hinsert =>
        change RowStep _ _ _ (after.lookup taskId)
        rw [Table.lookup_insert? hinsert]
        split
        case isTrue hid =>
          have hfresh := (Table.insert?_eq_some_iff.mp hinsert).1
          rw [hid] at hfresh
          change RowStep _ _ (found.tasks.lookup taskId) _
          rw [hfresh]
          exact RowStep.added rfl
        case isFalse => exact RowStep.same _
  | claimNext worker role startedAt =>
      change RowStep _ _ _ ((claimNext worker role startedAt found.tasks).2.lookup taskId)
      rcases claimNext_cases worker role startedAt found.tasks with
        ⟨hnone, -⟩ | ⟨row, hrow, hclaimable, hsome⟩
      · rw [hnone]
        exact RowStep.same _
      · rw [hsome, Table.lookup_modify]
        split
        case isTrue hid =>
          subst hid
          change RowStep _ _ (found.tasks.lookup row.id) _
          rw [Table.lookup_of_mem hrow]
          exact RowStep.claimed rfl (congrArg Prod.fst hsome) hclaimable
        case isFalse => exact RowStep.same _
  | recover taskIds =>
      change RowStep _ _ _ ((recover taskIds found.tasks).2.lookup taskId)
      rw [lookup_recover]
      change RowStep _ _ (found.tasks.lookup taskId) _
      cases hfound : found.tasks.lookup taskId with
      | none => exact RowStep.same none
      | some row =>
          rw [Option.map_some]
          split
          case isTrue hcondition =>
            exact RowStep.recovered rfl (mem_recover.mpr ⟨hcondition.1, row, hfound, hcondition.2⟩)
              hcondition.2
          case isFalse => exact RowStep.same _
  | requeue wanted =>
      refine rowStep_updateWhere fun row hwanted _ hfailed hreply => ?_
      subst hwanted
      exact RowStep.requeued rfl hreply hfailed
  | report wanted status result finishedAt =>
      refine rowStep_updateWhere fun row hwanted _ hrunning hreply => ?_
      subst hwanted
      exact RowStep.reported rfl hreply hrunning
  | cases statement => exact RowStep.same _
  | selectBinding wanted => exact RowStep.same _
  | selectTask wanted => exact RowStep.same _
  | selectRunning => exact RowStep.same _
  | selectFailure wanted => exact RowStep.same _
  | selectOutcome wanted => exact RowStep.same _
  | depart worker => exact RowStep.same _

end AegisForge.Shared.TaskQueue
