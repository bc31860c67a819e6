import AegisForge.Core.ParentChain
import AegisForge.Shared.PlannerWork

/-!
# Outcomes of planner actions

`record_action_outcome` stores an outcome under the task that it is called for and
looks for an earlier one under the nearest task above that has an action.  A later
decision can give the task itself an action, or take one away, and the next call
meets the stored row.
-/

namespace AegisForge.Shared.ActionOutcomes

open AegisForge.Core AegisForge.Concurrency
open AegisForge.Shared.TaskQueue hiding World

/-! ## The store -/

/-- The columns of a task that describe the action of its decision. -/
structure ActionColumns where
  actionRole : Option String
  expectedEvidenceGain : Float
  actionCost : Float
  actionEfficiency : Float

/-- A row of `planner_action_outcomes`. -/
structure ActionOutcome where
  childTaskId : String
  parentTaskId : String
  actionRole : String
  expectedEvidenceGain : Float
  actionCost : Float
  actionEfficiency : Float
  actualEvidenceGain : Float
  novelty : Float
  novelAtomCount : ℤ
  atomCount : ℤ
  predictionError : Float
  observedAt : String

abbrev OutcomeTable := Table ActionOutcome.childTaskId ActionOutcome.childTaskId

/-- The queue, the actions of its tasks and their outcomes. -/
structure World where
  queue : TaskQueue.World
  actions : String → Option ActionColumns
  outcomes : OutcomeTable

/-! ## Decisions -/

/-- `float(value or 0.0)`. -/
def orZero (value : Float) : Float := if value == 0.0 then 0.0 else value

/-- `max(0.0, min(1.0, value))`. -/
def clamp (value : Float) : Float :=
  let capped := if value < 1.0 then value else 1.0
  if 0.0 < capped then capped else 0.0

/-- The columns that `mark_planner_decision` writes. -/
def ActionColumns.written (columns : ActionColumns) : ActionColumns :=
  { columns with
    expectedEvidenceGain := orZero columns.expectedEvidenceGain
    actionCost := orZero columns.actionCost
    actionEfficiency := orZero columns.actionEfficiency }

/-- `mark_planner_decision`; without the task nothing is updated. -/
def markPlannerDecision (taskId : String) (decision : Option String) (columns : ActionColumns)
    (world : World) : World where
  queue := { world.queue with
    tasks := TaskQueue.markPlannerDecision world.queue.tasks taskId decision }
  actions :=
    if (world.queue.tasks.lookup taskId).isSome = true then
      Function.update world.actions taskId (some columns.written)
    else world.actions
  outcomes := world.outcomes

/-- `TaskQueue.add`; a new task has no action. -/
def addTask (task : NewTask) (world : World) : World :=
  let (result, queue) := (TaskQueue.add task).run TaskQueue.execute world.queue
  match result with
  | .ok _ => { world with queue, actions := Function.update world.actions task.taskId none }
  | .error _ => { world with queue }

/-! ## Attribution -/

/-- The task that a task names as its parent, unless the name is empty. -/
def parentOf (tasks : TaskTable) (taskId : String) : Option String :=
  (tasks.lookup taskId).bind fun row => row.parentTaskId.filter (· ≠ "")

/-- A task with a role in its action columns. -/
structure PlannerAction where
  taskId : String
  role : String
  columns : ActionColumns

def actionOf (world : World) (taskId : String) : Option PlannerAction := do
  let row ← world.queue.tasks.lookup taskId
  let columns ← world.actions row.id
  let role ← columns.actionRole.filter (· ≠ "")
  return ⟨row.id, role, columns⟩

/-- The nearest task with an action, from the child upwards; nothing if the walk does
not end within one step more than there are tasks. -/
def origin? (world : World) (childTaskId : String) : Option (Option PlannerAction) :=
  if childTaskId = "" then some none
  else firstAbove (parentOf world.queue.tasks) (actionOf world)
    (world.queue.tasks.rows.length + 1) childTaskId

/-! ## Outcomes -/

/-- The arguments of `record_action_outcome`, with the time that is stored. -/
structure OutcomeRequest where
  childTaskId : String
  actualEvidenceGain : Float
  novelty : Float
  novelAtomCount : ℤ
  atomCount : ℤ
  observedAt : String
  maxRows : ℤ

/-- The row that is inserted for an action. -/
def OutcomeRequest.row (request : OutcomeRequest) (origin : PlannerAction) : ActionOutcome :=
  let actual := clamp request.actualEvidenceGain
  let expected := clamp (orZero origin.columns.expectedEvidenceGain)
  { childTaskId := request.childTaskId
    parentTaskId := origin.taskId
    actionRole := origin.role
    expectedEvidenceGain := expected
    actionCost := orZero origin.columns.actionCost
    actionEfficiency := orZero origin.columns.actionEfficiency
    actualEvidenceGain := actual
    novelty := clamp request.novelty
    novelAtomCount := request.novelAtomCount
    atomCount := request.atomCount
    predictionError := actual - expected
    observedAt := request.observedAt }

/-- The ids beyond the newest `maxRows` outcomes. -/
def surplus (maxRows : ℤ) (outcomes : OutcomeTable) : List String :=
  ((outcomes.rows.insertionSort fun left right => right.observedAt ≤ left.observedAt).drop
    maxRows.toNat).map ActionOutcome.childTaskId

def keepNewest (maxRows : ℤ) (outcomes : OutcomeTable) : OutcomeTable :=
  outcomes.deleteWhere fun outcome => outcome.childTaskId ∈ surplus maxRows outcomes

/-- A walk that has not ended within its steps is broken off. -/
def interrupted : Raised := ⟨.operationalError, "interrupted"⟩

def outcomeExists : Raised :=
  ⟨.integrityError, "UNIQUE constraint failed: planner_action_outcomes.child_task_id"⟩

/-- An outcome of the action is stored. -/
def hasOutcome (taskId : String) (outcomes : OutcomeTable) : Bool :=
  outcomes.rows.any fun outcome => outcome.parentTaskId = taskId

/-- `record_action_outcome`, one transaction: what it returns and the store. -/
def recordActionOutcome (request : OutcomeRequest) (world : World) :
    Except Raised (Bool × World) :=
  match origin? world request.childTaskId with
  | none => .error interrupted
  | some none => .ok (false, world)
  | some (some origin) =>
      if hasOutcome origin.taskId world.outcomes = true then .ok (false, world)
      else
        match world.outcomes.insert? (request.row origin) with
        | none => .error outcomeExists
        | some outcomes =>
            .ok (true, { world with outcomes := keepNewest request.maxRows outcomes })

/-! ## Runs -/

inductive Operation
  | add (task : NewTask)
  | markPlannerDecision (taskId : String) (decision : Option String) (columns : ActionColumns)
  | recordActionOutcome (request : OutcomeRequest)

def operate (world : World) : Operation → World
  | .add task => addTask task world
  | .markPlannerDecision taskId decision columns =>
      ActionOutcomes.markPlannerDecision taskId decision columns world
  | .recordActionOutcome request =>
      match ActionOutcomes.recordActionOutcome request world with
      | .error _ => world
      | .ok (_, after) => after

/-- `uuid4` answers an unused id that is not the parent of the new task, and there are
fewer outcomes than are kept. -/
def Permits (world : World) : Operation → Prop
  | .add task => IsUnused task.taskId world.queue ∧ task.parentTaskId ≠ some task.taskId
  | .markPlannerDecision _ _ _ => True
  | .recordActionOutcome request => world.outcomes.rows.length < request.maxRows

instance (world : World) : ∀ operation, Decidable (Permits world operation)
  | .add task => inferInstanceAs (Decidable (IsUnused task.taskId world.queue ∧ _))
  | .markPlannerDecision _ _ _ => .isTrue trivial
  | .recordActionOutcome _ => inferInstanceAs (Decidable (_ < _))

/-- The child for which an operation stores an outcome. -/
def producedBy (world : World) : Operation → Option String
  | .recordActionOutcome request =>
      match ActionOutcomes.recordActionOutcome request world with
      | .ok (true, _) => some request.childTaskId
      | _ => none
  | _ => none

/-- The children for which a run stores outcomes. -/
def produced : World → List Operation → List String
  | _, [] => []
  | world, operation :: rest =>
      (producedBy world operation).toList ++ produced (operate world operation) rest

/-- Every chain of parents ends. -/
def IsForest (tasks : TaskTable) : Prop := ∀ taskId, ReachesRoot (parentOf tasks) taskId

/-- The call returns and changes nothing. -/
def IsNoOp (request : OutcomeRequest) (world : World) : Prop :=
  ∃ recorded, recordActionOutcome request world = .ok (recorded, world)

/-- The nearest action above the child, if there is one, has an outcome. -/
def IsAttributed (childTaskId : String) (world : World) : Prop :=
  ∀ origin, IsFirstAbove (parentOf world.queue.tasks) (actionOf world) childTaskId origin →
    hasOutcome origin.taskId world.outcomes = true

section Attribution

variable {world : World} {request : OutcomeRequest} {childTaskId : String}

theorem mem_ids_of_parentOf {tasks : TaskTable} {taskId : String}
    (hparent : (parentOf tasks taskId).isSome = true) : taskId ∈ tasks.rows.map TaskRow.id := by
  obtain ⟨parent, hsome⟩ := Option.isSome_iff_exists.mp hparent
  obtain ⟨row, hlookup, -⟩ := Option.bind_eq_some_iff.mp hsome
  have hid : row.id = taskId := Table.key_of_lookup hlookup
  exact List.mem_map.mpr ⟨row, Table.mem_of_lookup hlookup, hid⟩

/-- In a forest the walk ends. -/
theorem exists_origin (hforest : IsForest world.queue.tasks) (childTaskId : String) :
    ∃ origin, origin? world childTaskId = some origin := by
  rw [origin?]
  split
  · exact ⟨none, rfl⟩
  · have hends : EndsWithin (parentOf world.queue.tasks)
        (world.queue.tasks.rows.map TaskRow.id).length childTaskId :=
      (hforest childTaskId).endsWithin fun _ _ => mem_ids_of_parentOf
    rw [List.length_map] at hends
    exact hends.exists_firstAbove

theorem origin?_eq_some_some_iff (hforest : IsForest world.queue.tasks) {origin : PlannerAction}
    (hnamed : childTaskId ≠ "") : origin? world childTaskId = some (some origin) ↔
      IsFirstAbove (parentOf world.queue.tasks) (actionOf world) childTaskId origin := by
  obtain ⟨result, hresult⟩ := exists_origin hforest childTaskId
  rw [origin?, if_neg hnamed] at hresult
  rw [origin?, if_neg hnamed]
  constructor
  · exact isFirstAbove_of_firstAbove
  · intro hfirst
    rw [hresult, firstAbove_of_isFirstAbove hfirst hresult]

theorem hasOutcome_eq_true_iff {taskId : String} {outcomes : OutcomeTable} :
    hasOutcome taskId outcomes = true ↔ taskId ∈ outcomes.rows.map ActionOutcome.parentTaskId := by
  simp [hasOutcome]

/-- A call for a child with an outcome changes nothing exactly if the nearest action
above the child has one. -/
theorem isNoOp_iff (hforest : IsForest world.queue.tasks)
    (hstored : (world.outcomes.lookup request.childTaskId).isSome = true)
    (hnamed : request.childTaskId ≠ "") :
    IsNoOp request world ↔ IsAttributed request.childTaskId world := by
  obtain ⟨origin, horigin⟩ := exists_origin hforest request.childTaskId
  cases origin with
  | none =>
      have hnoOp : IsNoOp request world := ⟨false, by rw [recordActionOutcome, horigin]⟩
      refine iff_of_true hnoOp fun origin hfirst => ?_
      rw [(origin?_eq_some_some_iff hforest hnamed).mpr hfirst] at horigin
      cases horigin
  | some origin =>
      have hfirst := (origin?_eq_some_some_iff hforest hnamed).mp horigin
      have hattributed : IsAttributed request.childTaskId world ↔
          hasOutcome origin.taskId world.outcomes = true := by
        refine ⟨fun hall => hall origin hfirst, fun houtcome other hother => ?_⟩
        rw [(origin?_eq_some_some_iff hforest hnamed).mpr hother, Option.some.injEq,
          Option.some.injEq] at horigin
        rw [horigin]
        exact houtcome
      have hrefused : world.outcomes.insert? (request.row origin) = none := by
        cases hinsert : world.outcomes.insert? (request.row origin) with
        | none => rfl
        | some outcomes =>
            have hfresh : world.outcomes.lookup request.childTaskId = none :=
              (Table.insert?_eq_some_iff.mp hinsert).1
            rw [hfresh] at hstored
            cases hstored
      rw [hattributed, IsNoOp, recordActionOutcome, horigin]
      dsimp only
      split
      case isTrue houtcome => exact iff_of_true ⟨false, rfl⟩ houtcome
      case isFalse hnone =>
        rw [hrefused]
        refine iff_of_false ?_ hnone
        rintro ⟨recorded, hrecorded⟩
        cases hrecorded

end Attribution

/-! ## What an operation keeps -/

/-- Chains of parents end, and no action has two outcomes. -/
structure Kept (world : World) : Prop where
  forest : IsForest world.queue.tasks
  once : (world.outcomes.rows.map ActionOutcome.parentTaskId).Nodup

section Steps

variable {world after : World} {request : OutcomeRequest} {recorded : Bool}

/-- A call that returns has changed nothing, or has stored the outcome of an action
that had none. -/
theorem recordActionOutcome_cases
    (hrecorded : recordActionOutcome request world = .ok (recorded, after)) :
    (recorded = false ∧ after = world) ∨
      (recorded = true ∧ request.childTaskId ≠ "") ∧ ∃ origin outcomes,
        hasOutcome origin.taskId world.outcomes = false ∧
          world.outcomes.insert? (request.row origin) = some outcomes ∧
            after = { world with outcomes := keepNewest request.maxRows outcomes } := by
  rw [recordActionOutcome] at hrecorded
  cases horigin : origin? world request.childTaskId with
  | none =>
      rw [horigin] at hrecorded
      cases hrecorded
  | some origin =>
      cases origin with
      | none =>
          rw [horigin] at hrecorded
          obtain ⟨rfl, rfl⟩ := Prod.mk.inj (Except.ok.inj hrecorded)
          exact Or.inl ⟨rfl, rfl⟩
      | some origin =>
          have hnamed : request.childTaskId ≠ "" := by
            intro hempty
            rw [origin?, if_pos hempty] at horigin
            cases horigin
          rw [horigin] at hrecorded
          dsimp only at hrecorded
          split at hrecorded
          case isTrue =>
            obtain ⟨rfl, rfl⟩ := Prod.mk.inj (Except.ok.inj hrecorded)
            exact Or.inl ⟨rfl, rfl⟩
          case isFalse hnone =>
            cases hinsert : world.outcomes.insert? (request.row origin) with
            | none =>
                rw [hinsert] at hrecorded
                cases hrecorded
            | some outcomes =>
                rw [hinsert] at hrecorded
                obtain ⟨rfl, rfl⟩ := Prod.mk.inj (Except.ok.inj hrecorded)
                exact Or.inr ⟨⟨rfl, hnamed⟩, origin, outcomes, by simpa using hnone, hinsert, rfl⟩

theorem keepNewest_eq_self {maxRows : ℤ} {outcomes : OutcomeTable}
    (hroom : (outcomes.rows.length : ℤ) ≤ maxRows) : keepNewest maxRows outcomes = outcomes := by
  have hsurplus : surplus maxRows outcomes = [] := by
    rw [surplus, List.map_eq_nil_iff, List.drop_eq_nil_iff, List.length_insertionSort]
    omega
  apply Table.ext
  rw [keepNewest, hsurplus, Table.deleteWhere]
  simp

theorem nodup_keepNewest {maxRows : ℤ} {outcomes : OutcomeTable}
    (hnodup : (outcomes.rows.map ActionOutcome.parentTaskId).Nodup) :
    ((keepNewest maxRows outcomes).rows.map ActionOutcome.parentTaskId).Nodup :=
  hnodup.sublist (List.filter_sublist.map _)

/-- No action gets a second outcome. -/
theorem nodup_recordActionOutcome
    (hnodup : (world.outcomes.rows.map ActionOutcome.parentTaskId).Nodup)
    (hrecorded : recordActionOutcome request world = .ok (recorded, after)) :
    (after.outcomes.rows.map ActionOutcome.parentTaskId).Nodup := by
  rcases recordActionOutcome_cases hrecorded with
    ⟨-, rfl⟩ | ⟨-, origin, outcomes, hnone, hinsert, rfl⟩
  · exact hnodup
  · apply nodup_keepNewest
    rw [(Table.insert?_eq_some_iff.mp hinsert).2.2]
    refine Table.nodup_map_concat hnodup fun hmem => ?_
    have houtcome : hasOutcome origin.taskId world.outcomes = true :=
      hasOutcome_eq_true_iff.mpr hmem
    rw [hnone] at houtcome
    cases houtcome

/-! ### Forests -/

theorem parentOf_insert {tasks later : TaskTable} {row : TaskRow}
    (hinsert : tasks.insert? row = some later) (taskId : String) :
    parentOf later taskId =
      if row.id = taskId then row.parentTaskId.filter (· ≠ "") else parentOf tasks taskId := by
  rw [parentOf, Table.lookup_insert? hinsert]
  split
  · rfl
  · rfl

/-- A new task, which nobody has as a parent, leaves a forest a forest. -/
theorem IsForest.insert {tasks later : TaskTable} {row : TaskRow} (hforest : IsForest tasks)
    (hunused : ∀ other ∈ tasks.rows, other.parentTaskId ≠ some row.id)
    (hself : row.parentTaskId ≠ some row.id) (hinsert : tasks.insert? row = some later) :
    IsForest later := by
  have hparents := parentOf_insert hinsert
  have hold : ∀ taskId, taskId ≠ row.id → ReachesRoot (parentOf later) taskId := by
    intro taskId hne
    refine (reachesRoot_map_iff id (· ≠ row.id) ?_ ?_ hne).mpr (hforest taskId)
    · intro other hother
      rw [id_eq, hparents, if_neg (Ne.symm hother), Option.map_id_fun, id_eq]
    · intro other above _ habove
      obtain ⟨child, hchild, hparent⟩ := Option.bind_eq_some_iff.mp habove
      have hname := (Option.filter_eq_some_iff.mp hparent).1
      rintro rfl
      exact hunused child (Table.mem_of_lookup hchild) hname
  intro taskId
  by_cases hnew : taskId = row.id
  · cases hparent : parentOf later taskId with
    | none => exact ReachesRoot.root hparent
    | some above =>
        refine ReachesRoot.parent hparent (hold above ?_)
        rw [hparents, if_pos hnew.symm] at hparent
        rintro rfl
        exact hself (Option.filter_eq_some_iff.mp hparent).1
  · exact hold taskId hnew

theorem parentOf_markPlannerDecision (tasks : TaskTable) (wanted : String)
    (decision : Option String) (taskId : String) :
    parentOf (TaskQueue.markPlannerDecision tasks wanted decision) taskId =
      parentOf tasks taskId := by
  rw [parentOf, TaskQueue.markPlannerDecision, Table.lookup_modify]
  split
  case isTrue hsame =>
    rw [hsame, parentOf]
    cases tasks.lookup wanted with
    | none => rfl
    | some row => rfl
  case isFalse => rfl

theorem addTask_cases (task : NewTask) (world : World) :
    (addTask task world).outcomes = world.outcomes ∧
      ((addTask task world).queue.tasks = world.queue.tasks ∨ ∃ row, row.id = task.taskId ∧
        row.parentTaskId = task.parentTaskId ∧
          world.queue.tasks.insert? row = some (addTask task world).queue.tasks) := by
  have hstores := add_run_store task world.queue
  rw [addTask]
  generalize (TaskQueue.add task).run TaskQueue.execute world.queue = outcome at hstores
  obtain ⟨result, queue⟩ := outcome
  have hqueue : queue.tasks = world.queue.tasks ∨ ∃ row, row.id = task.taskId ∧
      row.parentTaskId = task.parentTaskId ∧
        world.queue.tasks.insert? row = some queue.tasks := by
    rcases hstores with hsame | ⟨row, tasks, hjoins, hinsert, hafter⟩
    · exact Or.inl (congrArg TaskQueue.World.tasks hsame)
    · obtain ⟨binding, intent, -, -, -, rfl⟩ := hjoins.exists_row
      have htasks : queue.tasks = tasks := congrArg TaskQueue.World.tasks hafter
      rw [htasks]
      exact Or.inr ⟨_, rfl, rfl, hinsert⟩
  cases result with
  | ok taskId => exact ⟨rfl, hqueue⟩
  | error error => exact ⟨rfl, hqueue⟩

/-- Every operation keeps the invariant. -/
theorem Kept.operate (hkept : Kept world) {operation : Operation}
    (hpermits : Permits world operation) : Kept (operate world operation) := by
  cases operation with
  | add task =>
      obtain ⟨houtcomes, htasks⟩ := addTask_cases task world
      change Kept (addTask task world)
      refine ⟨?_, houtcomes ▸ hkept.once⟩
      rcases htasks with hsame | ⟨row, hid, hparent, hinsert⟩
      · rw [hsame]
        exact hkept.forest
      · refine hkept.forest.insert (fun other hother => ?_) ?_ hinsert
        · rw [hid]
          exact (hpermits.1.2 other hother).2
        · rw [hid, hparent]
          exact hpermits.2
  | markPlannerDecision taskId decision columns =>
      refine ⟨fun other => ?_, hkept.once⟩
      have hsame : parentOf (ActionOutcomes.markPlannerDecision taskId decision columns
          world).queue.tasks = parentOf world.queue.tasks :=
        funext fun other => parentOf_markPlannerDecision world.queue.tasks taskId decision other
      change ReachesRoot (parentOf (ActionOutcomes.markPlannerDecision taskId decision columns
        world).queue.tasks) other
      rw [hsame]
      exact hkept.forest other
  | recordActionOutcome request =>
      rw [ActionOutcomes.operate]
      split
      case h_1 => exact hkept
      case h_2 recorded after hrecorded =>
        refine ⟨?_, nodup_recordActionOutcome hkept.once hrecorded⟩
        rcases recordActionOutcome_cases hrecorded with
          ⟨-, rfl⟩ | ⟨-, origin, outcomes, -, -, rfl⟩
        · exact hkept.forest
        · exact hkept.forest

/-! ### Stored outcomes -/

/-- While there are fewer outcomes than are kept, a new one displaces none. -/
theorem keepNewest_of_permits {origin : PlannerAction} {outcomes : OutcomeTable}
    (hinsert : world.outcomes.insert? (request.row origin) = some outcomes)
    (hpermits : Permits world (.recordActionOutcome request)) :
    keepNewest request.maxRows outcomes = outcomes := by
  have hroom : (world.outcomes.rows.length : ℤ) < request.maxRows := hpermits
  apply keepNewest_eq_self
  rw [(Table.insert?_eq_some_iff.mp hinsert).2.2, List.length_append, List.length_singleton]
  omega

theorem lookup_operate {operation : Operation} {childTaskId : String}
    (hstored : (world.outcomes.lookup childTaskId).isSome = true)
    (hpermits : Permits world operation) :
    ((operate world operation).outcomes.lookup childTaskId).isSome = true := by
  cases operation with
  | add task =>
      change ((addTask task world).outcomes.lookup childTaskId).isSome = true
      rw [(addTask_cases task world).1]
      exact hstored
  | markPlannerDecision taskId decision columns => exact hstored
  | recordActionOutcome request =>
      rw [operate]
      split
      case h_1 => exact hstored
      case h_2 recorded after hrecorded =>
        rcases recordActionOutcome_cases hrecorded with
          ⟨-, rfl⟩ | ⟨-, origin, outcomes, -, hinsert, rfl⟩
        · exact hstored
        · change ((keepNewest request.maxRows outcomes).lookup childTaskId).isSome = true
          rw [keepNewest_of_permits hinsert hpermits, Table.lookup_insert? hinsert]
          split
          · rfl
          · exact hstored

/-- A child for which an outcome was stored has one. -/
theorem lookup_of_producedBy {operation : Operation} {childTaskId : String}
    (hproduced : producedBy world operation = some childTaskId)
    (hpermits : Permits world operation) : childTaskId ≠ "" ∧
      ((operate world operation).outcomes.lookup childTaskId).isSome = true := by
  cases operation with
  | add task => cases hproduced
  | markPlannerDecision taskId decision columns => cases hproduced
  | recordActionOutcome request =>
      rw [producedBy] at hproduced
      split at hproduced
      case h_2 => cases hproduced
      case h_1 after hrecorded =>
        obtain rfl := Option.some.inj hproduced
        rcases recordActionOutcome_cases hrecorded with
          ⟨hfalse, -⟩ | ⟨⟨-, hnamed⟩, origin, outcomes, -, hinsert, rfl⟩
        · cases hfalse
        · refine ⟨hnamed, ?_⟩
          have hself : (request.row origin).childTaskId = request.childTaskId := rfl
          rw [operate, hrecorded]
          change ((keepNewest request.maxRows outcomes).lookup request.childTaskId).isSome = true
          rw [keepNewest_of_permits hinsert hpermits, Table.lookup_insert? hinsert, if_pos hself]
          rfl

end Steps

/-! ## Every run -/

section Runs

variable {start : World} {operations : List Operation} {childTaskId : String}

theorem lookup_of_produced (hpermitted : Permitted operate Permits start operations)
    (hproduced : childTaskId ∈ produced start operations) : childTaskId ≠ "" ∧
      ((run operate start operations).outcomes.lookup childTaskId).isSome = true := by
  induction operations generalizing start with
  | nil => cases hproduced
  | cons operation rest ih =>
      obtain ⟨hpermits, hrest⟩ := hpermitted
      rw [produced, List.mem_append, Option.mem_toList] at hproduced
      rcases hproduced with hfirst | hlater
      · obtain ⟨hnamed, hstored⟩ := lookup_of_producedBy hfirst hpermits
        refine ⟨hnamed, ?_⟩
        exact hrest.invariant
          (fun world => (world.outcomes.lookup childTaskId).isSome = true) hstored
          fun _ _ hworld hnext => lookup_operate hworld hnext
      · exact ih hrest hlater

/-- What recording promises after a run. -/
structure SamplesOnce (start : World) (operations : List Operation) : Prop where
  /-- No action has two outcomes. -/
  once : ((run operate start operations).outcomes.rows.map ActionOutcome.parentTaskId).Nodup
  /-- Every walk to the nearest action ends. -/
  ends : ∀ childTaskId, ∃ origin, origin? (run operate start operations) childTaskId = some origin
  /-- A second call for a child changes nothing exactly if the nearest action above
  it has an outcome. -/
  again : ∀ request : OutcomeRequest, request.childTaskId ∈ produced start operations →
    (IsNoOp request (run operate start operations) ↔
      IsAttributed request.childTaskId (run operate start operations))

/-- In every run over a forest an action has one outcome at most, and a second call
for a child is without effect as long as the nearest action has an outcome. -/
theorem samplesOnce (hforest : IsForest start.queue.tasks)
    (honce : (start.outcomes.rows.map ActionOutcome.parentTaskId).Nodup)
    (hpermitted : Permitted operate Permits start operations) :
    SamplesOnce start operations := by
  have hkept : Kept (run operate start operations) :=
    hpermitted.invariant Kept ⟨hforest, honce⟩ fun _ _ hworld hpermits => hworld.operate hpermits
  refine ⟨hkept.once, exists_origin hkept.forest, fun request hproduced => ?_⟩
  obtain ⟨hnamed, hstored⟩ := lookup_of_produced hpermitted hproduced
  exact isNoOp_iff hkept.forest hstored hnamed

end Runs

/-! ## A decision on the child -/

namespace Sample

def start : World where
  queue := TaskQueue.World.empty Table.empty []
  actions := fun _ => none
  outcomes := Table.empty

def columns (actionRole : String) : ActionColumns where
  actionRole := some actionRole
  expectedEvidenceGain := 0.5
  actionCost := 0.25
  actionEfficiency := 2.0

def outcome : OutcomeRequest where
  childTaskId := "task-2"
  actualEvidenceGain := 0.5
  novelty := 0.5
  novelAtomCount := 1
  atomCount := 1
  observedAt := "2026-05-01T12:00:00+00:00"
  maxRows := 200

/-- The outcome of a parent's action is stored under its child. -/
def recorded : List Operation :=
  [.add (TaskQueue.Sample.task "task-1" none false),
    .add (TaskQueue.Sample.task "task-2" (some "task-1") false),
    .markPlannerDecision "task-1" (some "CONTINUE") (columns "analyst"),
    .recordActionOutcome outcome]

/-- The child is decided on in its turn. -/
def decided : List Operation :=
  recorded ++ [.markPlannerDecision "task-2" (some "CONTINUE") (columns "validator")]

end Sample

theorem isForest_start : IsForest Sample.start.queue.tasks := fun _ => ReachesRoot.root rfl

theorem samplesOnce_recorded : SamplesOnce Sample.start Sample.recorded :=
  samplesOnce isForest_start List.nodup_nil (by decide +kernel)

/-- The first call has stored an outcome, and the next one raises. -/
theorem not_isNoOp_decided : "task-2" ∈ produced Sample.start Sample.decided ∧
    ¬IsNoOp Sample.outcome (run operate Sample.start Sample.decided) := by
  have hraised : (recordActionOutcome Sample.outcome
      (run operate Sample.start Sample.decided)).toOption.isSome = false := by decide +kernel
  refine ⟨by decide +kernel, ?_⟩
  rintro ⟨recorded, hrecorded⟩
  rw [hrecorded] at hraised
  cases hraised

theorem not_samplesOnce_decided :
    ¬∀ (start : World) (operations : List Operation), IsForest start.queue.tasks →
      (start.outcomes.rows.map ActionOutcome.parentTaskId).Nodup →
        Permitted operate Permits start operations →
          ((run operate start operations).outcomes.rows.map
              ActionOutcome.parentTaskId).Nodup ∧
            (∀ childTaskId, ∃ origin,
              origin? (run operate start operations) childTaskId = some origin) ∧
              ∀ request : OutcomeRequest, request.childTaskId ∈ produced start operations →
                IsNoOp request (run operate start operations) := by
  intro hall
  have hnoOp := (hall Sample.start Sample.decided isForest_start List.nodup_nil
    (by decide +kernel)).2.2 Sample.outcome not_isNoOp_decided.1
  exact not_isNoOp_decided.2 hnoOp

end AegisForge.Shared.ActionOutcomes
