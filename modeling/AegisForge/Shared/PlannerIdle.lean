import AegisForge.Shared.PlannerWork

/-!
# Idle detection

The master asks whether the planner has work before it starts a goal.  Its query
does not look at the children of a task, while the planner is offered only tasks
without children; and it does not count the tasks that the planner keeps open.
-/

namespace AegisForge.Shared.TaskQueue

open AegisForge.Core AegisForge.Concurrency

/-! ## The two queries -/

/-- `status NOT IN ('completed', 'failed')`. -/
def isLive (row : TaskRow) : Bool := row.status ≠ .completed && row.status ≠ .failed

/-- `status = 'completed' AND result IS NOT NULL`. -/
def hasOutcome (row : TaskRow) : Bool := row.status = .completed && row.result.isSome

section Queries

variable (tasks : TaskTable) (evaluationOnly : String → Bool)

/-- `TaskQueue.has_planner_work`. -/
def hasPlannerWork : Bool :=
  tasks.rows.any fun row =>
    isLive row && !evaluationOnly row.id ||
      hasOutcome row && row.plannerDecision.isNone && !evaluationOnly row.id

/-- Some task is pending or running. -/
def HasLiveTask : Prop :=
  ∃ row ∈ tasks.rows, (row.status = .pending ∨ row.status = .running) ∧ evaluationOnly row.id = false

/-- The planner is offered a completed task with its result. -/
def OffersOutcome : Prop :=
  ∃ row ∈ planningTasks tasks evaluationOnly, row.status = .completed ∧ row.result.isSome = true

/-- The master sees work if and only if there is some, or the planner is offered some. -/
def AgreesWithPlanner : Prop :=
  hasPlannerWork tasks evaluationOnly = true ↔
    HasLiveTask tasks evaluationOnly ∨ OffersOutcome tasks evaluationOnly

/-! ## Finished tasks of three kinds -/

/-- A completed task with a result that is not a shadow evaluation. -/
def isReviewable (row : TaskRow) : Bool := hasOutcome row && !evaluationOnly row.id

/-- Nothing has been done about the task. -/
def isUntouched (row : TaskRow) : Bool :=
  isReviewable evaluationOnly row && row.plannerDecision.isNone && isChildless tasks row

/-- The task has a child, but the planner has not decided about it. -/
def isHandedOff (row : TaskRow) : Bool :=
  isReviewable evaluationOnly row && row.plannerDecision.isNone && !isChildless tasks row

/-- The planner has decided to go on, but the task has no child. -/
def isUncontinued (row : TaskRow) : Bool :=
  isReviewable evaluationOnly row && row.plannerDecision.any (· ∈ openDecisions) &&
    isChildless tasks row

/-- There is a live or an untouched task, or handed-off and uncontinued tasks exist
only together. -/
def HasPlainWork : Prop :=
  HasLiveTask tasks evaluationOnly ∨ tasks.rows.any (isUntouched tasks evaluationOnly) = true ∨
    (tasks.rows.any (isHandedOff tasks evaluationOnly) = true ↔
      tasks.rows.any (isUncontinued tasks evaluationOnly) = true)

end Queries

variable {tasks : TaskTable} {evaluationOnly : String → Bool}

instance : Decidable (HasLiveTask tasks evaluationOnly) :=
  inferInstanceAs (Decidable (∃ row ∈ tasks.rows, _ ∧ _))

instance : Decidable (OffersOutcome tasks evaluationOnly) :=
  inferInstanceAs (Decidable (∃ row ∈ planningTasks tasks evaluationOnly, _ ∧ _))

instance : Decidable (AgreesWithPlanner tasks evaluationOnly) := inferInstanceAs (Decidable (_ ↔ _))

/-! ## What each query sees -/

theorem isLive_iff {row : TaskRow} :
    isLive row = true ↔ row.status = .pending ∨ row.status = .running := by
  rw [isLive]
  cases row.status <;> decide

theorem hasOutcome_iff {row : TaskRow} :
    hasOutcome row = true ↔ row.status = .completed ∧ row.result.isSome = true := by
  simp [hasOutcome]

/-- The master sees the live tasks and those without a decision. -/
theorem hasPlannerWork_iff :
    hasPlannerWork tasks evaluationOnly = true ↔
      HasLiveTask tasks evaluationOnly ∨ tasks.rows.any (isUntouched tasks evaluationOnly) = true ∨
        tasks.rows.any (isHandedOff tasks evaluationOnly) = true := by
  simp only [hasPlannerWork, HasLiveTask, List.any_eq_true]
  constructor
  · rintro ⟨row, hrow, hwork⟩
    rcases (Bool.or_eq_true _ _).mp hwork with hlive | hundecided
    · simp only [Bool.and_eq_true, Bool.not_eq_true', isLive_iff] at hlive
      exact Or.inl ⟨row, hrow, hlive⟩
    · simp only [Bool.and_eq_true, Bool.not_eq_true'] at hundecided
      obtain ⟨⟨houtcome, hnone⟩, hevaluation⟩ := hundecided
      right
      cases hchildless : isChildless tasks row with
      | true =>
          exact Or.inl ⟨row, hrow, by simp [isUntouched, isReviewable, houtcome, hnone, hevaluation,
            hchildless]⟩
      | false =>
          exact Or.inr ⟨row, hrow, by simp [isHandedOff, isReviewable, houtcome, hnone, hevaluation,
            hchildless]⟩
  · rintro (⟨row, hrow, hlive, hevaluation⟩ | ⟨row, hrow, hkind⟩ | ⟨row, hrow, hkind⟩)
    · exact ⟨row, hrow, by simp [isLive_iff.mpr hlive, hevaluation]⟩
    · simp only [isUntouched, isReviewable, Bool.and_eq_true] at hkind
      exact ⟨row, hrow, by simp [hkind]⟩
    · simp only [isHandedOff, isReviewable, Bool.and_eq_true] at hkind
      exact ⟨row, hrow, by simp [hkind]⟩

/-- The planner is offered the untouched tasks and those that it has to continue. -/
theorem offersOutcome_iff :
    OffersOutcome tasks evaluationOnly ↔
      tasks.rows.any (isUntouched tasks evaluationOnly) = true ∨
        tasks.rows.any (isUncontinued tasks evaluationOnly) = true := by
  simp only [OffersOutcome, List.any_eq_true]
  constructor
  · rintro ⟨row, hoffered, hcompleted, hresult⟩
    obtain ⟨hrow, hevaluation, hopen, hchildless⟩ := (mem_planningTasks_iff hcompleted).mp hoffered
    have houtcome : hasOutcome row = true := hasOutcome_iff.mpr ⟨hcompleted, hresult⟩
    cases hdecision : row.plannerDecision with
    | none =>
        exact Or.inl ⟨row, hrow, by simp [isUntouched, isReviewable, houtcome, hevaluation,
          hdecision, hchildless]⟩
    | some decision =>
        rw [isOpenForPlanner, hdecision] at hopen
        have hkind : isUncontinued tasks evaluationOnly row = true := by
          rw [isUncontinued, isReviewable, hdecision, houtcome, hevaluation, hchildless]
          simpa using hopen
        exact Or.inr ⟨row, hrow, hkind⟩
  · rintro (⟨row, hrow, hkind⟩ | ⟨row, hrow, hkind⟩)
    · simp only [isUntouched, isReviewable, Bool.and_eq_true, Bool.not_eq_true'] at hkind
      obtain ⟨⟨⟨houtcome, hevaluation⟩, hnone⟩, hchildless⟩ := hkind
      obtain ⟨hcompleted, hresult⟩ := hasOutcome_iff.mp houtcome
      have hopen : isOpenForPlanner row = true := by
        rw [isOpenForPlanner, Option.isNone_iff_eq_none.mp hnone]
        rfl
      exact ⟨row, (mem_planningTasks_iff hcompleted).mpr ⟨hrow, hevaluation, hopen, hchildless⟩,
        hcompleted, hresult⟩
    · simp only [isUncontinued, isReviewable, Bool.and_eq_true, Bool.not_eq_true'] at hkind
      obtain ⟨⟨⟨houtcome, hevaluation⟩, hany⟩, hchildless⟩ := hkind
      obtain ⟨hcompleted, hresult⟩ := hasOutcome_iff.mp houtcome
      have hopen : isOpenForPlanner row = true := by
        rw [isOpenForPlanner]
        cases hdecision : row.plannerDecision with
        | none => rfl
        | some decision => simpa [hdecision] using hany
      exact ⟨row, (mem_planningTasks_iff hcompleted).mpr ⟨hrow, hevaluation, hopen, hchildless⟩,
        hcompleted, hresult⟩

theorem agreesWithPlanner_iff :
    AgreesWithPlanner tasks evaluationOnly ↔ HasPlainWork tasks evaluationOnly := by
  rw [AgreesWithPlanner, hasPlannerWork_iff, offersOutcome_iff, HasPlainWork]
  tauto

/-- In every state that operations and decisions reach, the master and the planner
agree if and only if there is plain work. -/
theorem agreesWithPlanner_run_iff (operations : List PlannedOperation)
    (evaluationOnly : String → Bool) :
    AgreesWithPlanner (run perform (World.empty Table.empty []) operations).tasks evaluationOnly ↔
      HasPlainWork (run perform (World.empty Table.empty []) operations).tasks evaluationOnly :=
  agreesWithPlanner_iff

/-- A worker adds a child of its task and completes both, and the planner ends the child. -/
def Sample.handedOff : List PlannedOperation :=
  [.queue (.call (.add (Sample.task "task-1" none false))),
    .queue (.call (.claim "worker-1" none Sample.noon)),
    .queue (.call (.add (Sample.task "task-2" (some "task-1") false))),
    .queue (.call (.finish "worker-1" "task-1" (some (.ok "done")) Sample.noon)),
    .queue (.call (.claim "worker-2" none Sample.noon)),
    .queue (.call (.finish "worker-2" "task-2" (some (.ok "done")) Sample.later)),
    .markPlannerDecision "task-2" (some "COMPLETE")]

theorem not_agreesWithPlanner_handedOff :
    ¬∀ operations, Permitted perform PerformsUnused (World.empty Table.empty []) operations →
      ∀ evaluationOnly,
        AgreesWithPlanner (run perform (World.empty Table.empty []) operations).tasks
          evaluationOnly := by
  intro hall
  have hagrees := hall Sample.handedOff (by decide +kernel) fun _ => false
  revert hagrees
  decide +kernel

end AegisForge.Shared.TaskQueue
