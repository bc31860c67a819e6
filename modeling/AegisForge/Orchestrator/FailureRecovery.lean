import Mathlib.Data.List.Infix
import AegisForge.Shared.EvidenceLedger
import AegisForge.Shared.PlannerWork
import AegisForge.Shared.RequestedIntent
import AegisForge.Shared.ResultRetention

/-!
# Transient failures

A worker stores why a task failed, and the planner requeues the failures whose record
names a transient type of error.  The record of an agent that raised has that name in
another field, and once cases are registered a record must name one of them.
-/

namespace AegisForge.Orchestrator.FailureRecovery

open AegisForge.Core AegisForge.Concurrency AegisForge.Shared AegisForge.Shared.TaskQueue

/-! ## Records of failures -/

/-- How `Worker.run_once` fails a task because of its agent. -/
inductive WorkerFailure
  /-- The agent raised. -/
  | raised (typeName message traceback : String)
  /-- The execution of a grant raised. -/
  | executionRaised (typeName message : String)
  /-- The agent returned an object with an `error_type`. -/
  | reported (fields : List (String × Json)) (typeName : String)
      (htype : fields.lookup "error_type" = some (.text typeName))

namespace WorkerFailure

/-- The result that the worker stores. -/
def record : WorkerFailure → Json
  | raised typeName message traceback =>
      .object [("error", .text message), ("type", .text typeName), ("traceback", .text traceback)]
  | executionRaised typeName message =>
      .object [("error", .text message), ("error_type", .text typeName)]
  | reported fields _ _ => .object fields

def typeName : WorkerFailure → String
  | raised typeName _ _ => typeName
  | executionRaised typeName _ => typeName
  | reported _ typeName _ => typeName

def isRaised : WorkerFailure → Bool
  | raised _ _ _ => true
  | _ => false

end WorkerFailure

/-! ## Retryable failures -/

/-- The types of deterministic failures. -/
def permanentTypes : List String :=
  ["orphaned_dag_branch", "PipelineContractError", "CapabilityBlocked",
    "CapabilityEvidenceRequired"]

/-- The types of transient failures. -/
def transientTypes : List String :=
  ["PartialInspectionFailure", "PartialSecurityInspectionFailure", "RuntimeError",
    "TimeoutError", "ConnectionError"]

/-- The message of the historical failures of the security checker. -/
def contractMessage : String :=
  "Security Checker received no technical_review from Developer"

section Records

variable (rendering : Rendering)

/-- `str(record.get(key) or "")`. -/
def textOf (record : Json) (key : String) : String :=
  if (record.get key).isTruthy = true then rendering.str (record.get key) else ""

/-- The error of the record has the message of a historical contract failure. -/
def hasContractMessage (record : Json) : Bool :=
  decide (contractMessage.toList <:+: (textOf rendering record "error").toList)

/-- `AutonomousPlanner.retryable_failure` of a result. -/
def retryableFailure (record : Json) : Bool :=
  let errorType := textOf rendering record "error_type"
  if record.isObject = false then false
  else if errorType ∈ permanentTypes then false
  else if errorType = "RuntimeError" ∧ hasContractMessage rendering record = true then false
  else decide (errorType ∈ transientTypes)

end Records

/-! ## The planner's tasks -/

/-- What the planner reads of a stored result. -/
abbrev ParseResult := String → Json

variable (parseResult : ParseResult) (tasks : TaskTable)

def recordOf (row : TaskRow) : Json := row.result.elim .null parseResult

/-- The ids in `research_cases`. -/
def registeredCaseIds (cases : ResearchCaseRegistry.CaseTable) : List String :=
  (cases.rows.map ResearchCaseRegistry.CaseRow.caseId).filter (· ≠ "")

/-- The case that a record is bound to. -/
def caseIdOf (record : Json) : Json :=
  let binding := record.get "research_case_binding"
  if binding.isObject = true then binding.get "case_id" else record.get "research_case_id"

/-- The record names one of the cases. -/
def isBound (caseIds : List String) (row : TaskRow) : Bool :=
  (recordOf parseResult row).isObject &&
    (caseIdOf (recordOf parseResult row)).text?.any (· ∈ caseIds)

/-- A list or an object stands where the case of a record is looked up in a set. -/
def isUnhashable (row : TaskRow) : Bool :=
  (recordOf parseResult row).isObject && !(caseIdOf (recordOf parseResult row)).isHashable

/-- `AutonomousPlanner._focus_case_tasks`. -/
def focusCaseTasks (caseIds : List String) (rows : List TaskRow) : Except Raised (List TaskRow) :=
  if caseIds = [] then .ok rows
  else if rows.any (isUnhashable parseResult) = true then .error unhashable
  else .ok (rows.filter (isBound parseResult caseIds))

/-! ## Recovery -/

/-- `MAX_FAILED_RECOVERIES_PER_CYCLE`. -/
def maxFailedRecoveriesPerCycle : ℕ := 3

/-- `MAX_RETRIES_PER_TASK`. -/
def maxRetriesPerTask : ℤ := 3

/-- `FAILED_RETRY_COOLDOWN_SECONDS`, in microseconds. -/
def failedRetryCooldown : ℤ := 60000000

/-- The cooldown is over, or there is no time that it could be measured from. -/
def isCooledDown (now : DateTime) (row : TaskRow) : Bool :=
  match (row.finishedAt.filter (· ≠ "")).bind fun text => DateTime.fromisoformat text.toList with
  | none => true
  | some finished =>
      finished.offset.isNone || decide (failedRetryCooldown ≤ now.instant - finished.instant)

/-- `key=lambda item: item.get("finished_at") or "", reverse=True`. -/
def finishedFirst (later earlier : TaskRow) : Prop :=
  earlier.finishedAt.getD "" ≤ later.finishedAt.getD ""

instance : DecidableRel finishedFirst := fun later earlier =>
  inferInstanceAs (Decidable (earlier.finishedAt.getD "" ≤ later.finishedAt.getD ""))

/-- The planner would recover the task. -/
def isRecoverable (rendering : Rendering) (row : TaskRow) : Bool :=
  row.isFailed && retryableFailure rendering (recordOf parseResult row)

/-- `failed_tasks`, sorted. -/
def failedTasks (rendering : Rendering) (rows : List TaskRow) : List TaskRow :=
  (rows.filter (isRecoverable parseResult rendering)).insertionSort finishedFirst

/-- The loop of `recover_failed_tasks`, with the number of tasks recovered so far. -/
def recoverFailedTasks (now : DateTime) :
    List TaskRow → ℕ → Program TaskQueue.Statement.Reply Raised (List String)
  | [], _ => .done []
  | row :: rest, recovered =>
      if maxFailedRecoveriesPerCycle ≤ recovered then .done []
      else do
        let found : Option FailureView ← send (.selectFailure row.id)
        if maxRetriesPerTask ≤ (found.elim 0 FailureView.retryCount : ℕ) then
          recoverFailedTasks now rest recovered
        else if isCooledDown now row = false then recoverFailedTasks now rest recovered
        else do
          let requeued ← requeueFailed row.id maxRetriesPerTask
          if requeued = true then do
            let later ← recoverFailedTasks now rest (recovered + 1)
            return row.id :: later
          else recoverFailedTasks now rest recovered

/-- The compaction at the beginning of `plan`; what it raises is only printed. -/
def compacted (now : DateTime) : TaskTable :=
  match compactCompletedResults tasks 7 4 500 now with
  | .error _ => tasks
  | .ok (_, after) => (compactHistory after 500 1000).2

/-- The store after `recover_failed_tasks` of some tasks. -/
def afterRecovery (now : DateTime) (failed : List TaskRow) (world : TaskQueue.World) :
    TaskQueue.World :=
  ((recoverFailedTasks now failed 0).run TaskQueue.execute world).2

/-- The store after `plan`, which started at a time, has recovered failed tasks; the rest
of it changes no failed or pending task. -/
def planRecovery (rendering : Rendering) (evaluationOnly : String → Bool) (started now : DateTime)
    (world : TaskQueue.World) : TaskQueue.World :=
  let after := { world with tasks := compacted world.tasks started }
  match focusCaseTasks parseResult (registeredCaseIds world.cases)
      (planningTasks after.tasks evaluationOnly) with
  | .error _ => after
  | .ok focused =>
      afterRecovery now (failedTasks parseResult rendering focused) after

/-! ## Failures that are to be retried -/

instance (maxRetries : ℤ) (row : TaskRow) : Decidable (MayRequeue tasks maxRetries row) :=
  decidable_of_iff
    (row.status = .failed ∧ (row.retryCount : ℤ) < maxRetries ∧
      (row.parentTaskId.filter (· ≠ "")).all (fun parentId => parentAllows row.allowFailedParent
        ((tasks.lookup parentId).map fun parent => (parent.status, parent.result))) = true)
    (by simp [MayRequeue, Option.all_eq_true, or_iff_not_imp_left])

/-- One of the tasks is the parent. -/
def waitsFor (requeued : List String) (row : TaskRow) : Bool :=
  row.parentTaskId.any fun parentId => parentId ≠ "" && parentId ∈ requeued

/-- The failure is requeued after those of a list. -/
def IsDue (now : DateTime) (requeued : List String) (row : TaskRow) : Prop :=
  isCooledDown now row = true ∧ MayRequeue tasks maxRetriesPerTask row ∧
    waitsFor requeued row = false

instance (now : DateTime) (requeued : List String) (row : TaskRow) :
    Decidable (IsDue tasks now requeued row) := inferInstanceAs (Decidable (_ ∧ _ ∧ _))

/-- The failures that are requeued if each is tried in turn, after those of a list. -/
def takenUp (now : DateTime) : List TaskRow → List String → List String
  | [], requeued => requeued
  | row :: rest, requeued =>
      takenUp now rest (if IsDue tasks now requeued row then requeued ++ [row.id] else requeued)

/-- The tasks that the planner looks at. -/
def focusedTasks (evaluationOnly : String → Bool) (caseIds : List String) : List TaskRow :=
  if caseIds = [] then planningTasks tasks evaluationOnly
  else (planningTasks tasks evaluationOnly).filter (isBound parseResult caseIds)

/-- The failures that the planner tries before a task. -/
def triedBefore (rendering : Rendering) (evaluationOnly : String → Bool) (caseIds : List String)
    (taskId : String) : List TaskRow :=
  (failedTasks parseResult rendering
    (focusedTasks parseResult tasks evaluationOnly caseIds)).takeWhile fun row => row.id ≠ taskId

/-- A failure with a transient type, of a task that may be tried again. -/
structure IsTransient (rendering : Rendering) (evaluationOnly : String → Bool) (now : DateTime)
    (failure : WorkerFailure) (row : TaskRow) : Prop where
  stored : row ∈ tasks.rows
  failed : row.status = .failed
  planned : evaluationOnly row.id = false
  record : row.result.map parseResult = some failure.record
  transient : failure.typeName ∈ transientTypes
  /-- Its parent is ready, and it has retries left. -/
  ready : MayRequeue tasks maxRetriesPerTask row
  cooledDown : isCooledDown now row = true
  few : (tasks.rows.countP fun other => isRecoverable parseResult rendering other &&
    !evaluationOnly other.id && decide (row.finishedAt.getD "" < other.finishedAt.getD "")) <
      maxFailedRecoveriesPerCycle

/-- The planner takes a transient failure up. -/
structure IsTakenUp (rendering : Rendering) (evaluationOnly : String → Bool)
    (caseIds : List String) (now : DateTime) (failure : WorkerFailure) (row : TaskRow) : Prop where
  /-- The record has an `error_type`. -/
  typed : failure.isRaised = false
  /-- It is not one of the historical failures of the security checker. -/
  plain : failure.typeName = "RuntimeError" → hasContractMessage rendering failure.record = false
  /-- The record names a registered case, if there are any. -/
  bound : caseIds = [] ∨ isBound parseResult caseIds row = true
  /-- No record has a list or an object for the id of its case, if there are cases. -/
  hashable : caseIds = [] ∨
    ∀ other ∈ planningTasks tasks evaluationOnly, isUnhashable parseResult other = false
  /-- The task is stored, and its parent is ready, after the compaction. -/
  kept : ∃ kept, tasks.lookup row.id = some kept ∧ MayRequeue tasks maxRetriesPerTask kept
  /-- Few of the failures tried before it are requeued, and its parent is none of them. -/
  few : (takenUp tasks now (triedBefore parseResult tasks rendering evaluationOnly caseIds row.id)
    []).length < maxFailedRecoveriesPerCycle
  free : waitsFor (takenUp tasks now
    (triedBefore parseResult tasks rendering evaluationOnly caseIds row.id) []) row = false

variable {parseResult : ParseResult} {tasks : TaskTable}

/-! ## Which records are retryable -/

section Retryable

variable {rendering : Rendering} {failure : WorkerFailure}

theorem textOf_of_lookup {fields : List (String × Json)} {key value : String}
    (hlookup : fields.lookup key = some (.text value)) :
    textOf rendering (.object fields) key = value := by
  have hget : (Json.object fields).get key = .text value := by
    rw [Json.get, Json.get?, hlookup, Option.getD_some]
  rw [textOf, hget, Json.isTruthy, Rendering.str]
  by_cases hempty : value = ""
  · simp [hempty]
  · simp [hempty]

/-- The type that the planner reads; the record of an agent that raised has none. -/
theorem textOf_record :
    textOf rendering failure.record "error_type" =
      if failure.isRaised = true then "" else failure.typeName := by
  cases failure with
  | raised typeName message traceback => rfl
  | executionRaised typeName message => exact textOf_of_lookup rfl
  | reported fields typeName htype => exact textOf_of_lookup htype

theorem isObject_record (failure : WorkerFailure) : failure.record.isObject = true := by
  cases failure <;> rfl

theorem not_mem_permanentTypes {typeName : String} (htransient : typeName ∈ transientTypes) :
    typeName ∉ permanentTypes := by
  intro hpermanent
  simp only [transientTypes, List.mem_cons, List.not_mem_nil, or_false] at htransient
  rcases htransient with rfl | rfl | rfl | rfl | rfl <;> exact absurd hpermanent (by decide)

/-- A failure of a transient type is retryable unless the agent raised or its message
is that of a contract failure. -/
theorem retryableFailure_record_iff (htransient : failure.typeName ∈ transientTypes) :
    retryableFailure rendering failure.record = true ↔
      failure.isRaised = false ∧
        (failure.typeName = "RuntimeError" →
          hasContractMessage rendering failure.record = false) := by
  rw [retryableFailure]
  simp only [isObject_record, textOf_record, Bool.true_eq_false, if_false]
  cases hraised : failure.isRaised with
  | true => simp [permanentTypes, transientTypes]
  | false =>
      simp only [Bool.false_eq_true, if_false, not_mem_permanentTypes htransient, true_and]
      split
      case isTrue hcontract => simp [hcontract]
      case isFalse hplain =>
        simp only [htransient, decide_true, true_iff]
        intro htype
        simpa [htype] using hplain

end Retryable

/-! ## One requeue -/

section Requeue

variable {world : TaskQueue.World} {row : TaskRow} {taskId : String} {maxRetries : ℤ}

/-- The update of `requeue_failed`, behind a check. -/
def requeueIf (allowed : Bool) (taskId : String) :
    Program TaskQueue.Statement.Reply Raised Bool :=
  if allowed = true then send (.requeue taskId) else .done false

theorem requeueIf_run_cases (allowed : Bool) (taskId : String) (world : TaskQueue.World) :
    (requeueIf allowed taskId).run TaskQueue.execute world = (.ok false, world) ∨
      (requeueIf allowed taskId).run TaskQueue.execute world =
        (.ok (requeue taskId world.tasks).1,
          { world with tasks := (requeue taskId world.tasks).2 }) := by
  cases allowed with
  | true => exact Or.inr rfl
  | false => exact Or.inl rfl

/-- `requeue_failed` executes its update, or changes nothing. -/
theorem requeueFailed_run_cases (taskId : String) (maxRetries : ℤ) (world : TaskQueue.World) :
    (requeueFailed taskId maxRetries).run TaskQueue.execute world = (.ok false, world) ∨
      (requeueFailed taskId maxRetries).run TaskQueue.execute world =
        (.ok (requeue taskId world.tasks).1,
          { world with tasks := (requeue taskId world.tasks).2 }) := by
  generalize hrun : (requeueFailed taskId maxRetries).run TaskQueue.execute world = answer
  rw [requeueFailed] at hrun
  change Program.run TaskQueue.execute
    (Program.bind (.done (TaskQueue.execute (.selectFailure taskId) world).1) _) world = _ at hrun
  cases hfound : (TaskQueue.execute (.selectFailure taskId) world).1 with
  | none =>
      rw [hfound] at hrun
      exact Or.inl hrun.symm
  | some task =>
      rw [hfound] at hrun
      change Program.run TaskQueue.execute (if task.status ≠ .failed ∨
        maxRetries ≤ (task.retryCount : ℤ) then _ else _) world = _ at hrun
      split at hrun
      · exact Or.inl hrun.symm
      · split at hrun
        · exact Or.inr hrun.symm
        · rw [← hrun]
          exact requeueIf_run_cases _ taskId world

/-- `requeue_failed` of a failed task requeues it if it may. -/
theorem requeueFailed_run (hlookup : world.tasks.lookup taskId = some row)
    (hfailed : row.status = .failed) :
    (requeueFailed taskId maxRetries).run TaskQueue.execute world =
      if MayRequeue world.tasks maxRetries row then
        (.ok true, { world with tasks := (requeue taskId world.tasks).2 })
      else (.ok false, world) := by
  have hreturns : ((requeueFailed taskId maxRetries).run TaskQueue.execute world).1 = .ok true ↔
      MayRequeue world.tasks maxRetries row := by
    rw [requeueFailed_run_iff]
    simp [hlookup]
  have hupdated : (requeue taskId world.tasks).1 = true :=
    Table.updateWhere_eq_true_iff.mpr ⟨row, hlookup, decide_eq_true hfailed⟩
  rcases requeueFailed_run_cases taskId maxRetries world with hrun | hrun
  · rw [hrun] at hreturns ⊢
    rw [if_neg fun hmay => Bool.false_ne_true (Except.ok.inj (hreturns.mpr hmay))]
  · rw [hrun, hupdated] at hreturns
    rw [hrun, hupdated, if_pos (hreturns.mp rfl)]

end Requeue

/-! ## The loop -/

/-- The table after some tasks were requeued. -/
def IsAfter (original current : TaskTable) (requeued : List String) : Prop :=
  ∀ taskId, current.lookup taskId = (original.lookup taskId).map fun row =>
    if taskId ∈ requeued then row.requeued else row

section Loop

variable {original : TaskTable} {now : DateTime} {rows before after : List TaskRow}
variable {requeued : List String} {row : TaskRow} {world : TaskQueue.World}

theorem isAfter_nil (original : TaskTable) : IsAfter original original [] := by
  intro taskId
  simp

/-- A requeued parent lets nothing be tried again. -/
theorem mayRequeue_of_isAfter {current : TaskTable} (hafter : IsAfter original current requeued) :
    MayRequeue current maxRetriesPerTask row ↔
      MayRequeue original maxRetriesPerTask row ∧ waitsFor requeued row = false := by
  rw [MayRequeue, MayRequeue, and_assoc, and_assoc]
  refine and_congr_right fun _ => and_congr_right fun _ => ?_
  cases hparent : row.parentTaskId with
  | none => simp [waitsFor, hparent]
  | some parentId =>
      rw [waitsFor, hparent]
      simp only [Option.some.injEq, forall_eq', Option.any_some, hafter parentId]
      by_cases hempty : parentId = ""
      · simp [hempty]
      · by_cases hmem : parentId ∈ requeued
        · cases original.lookup parentId with
          | none => simp [hempty, hmem, parentAllows]
          | some parent => simp [hempty, hmem, parentAllows, TaskRow.requeued]
        · simp [hempty, hmem]

theorem isAfter_requeue {current : TaskTable} (hafter : IsAfter original current requeued)
    (hlookup : original.lookup row.id = some row) (hfresh : row.id ∉ requeued)
    (hfailed : row.status = .failed) :
    IsAfter original (requeue row.id current).2 (requeued ++ [row.id]) := by
  intro taskId
  rw [requeue, Table.lookup_updateWhere, hafter taskId, Option.map_map]
  by_cases htask : taskId = row.id
  · subst htask
    simp [hlookup, hfresh, TaskRow.isFailed, hfailed]
  · congr 1
    funext other
    simp [htask]

theorem takenUp_cons (tasks : TaskTable) :
    takenUp tasks now (row :: rows) requeued =
      takenUp tasks now rows
        (if IsDue tasks now requeued row then requeued ++ [row.id] else requeued) := rfl

theorem takenUp_append (tasks : TaskTable) :
    takenUp tasks now (before ++ after) requeued =
      takenUp tasks now after (takenUp tasks now before requeued) := by
  induction before generalizing requeued with
  | nil => rfl
  | cons row before ih => rw [List.cons_append, takenUp_cons, takenUp_cons, ih]

/-- What was requeued stays at the front. -/
theorem prefix_takenUp (tasks : TaskTable) (rows : List TaskRow) (requeued : List String) :
    requeued <+: takenUp tasks now rows requeued := by
  induction rows generalizing requeued with
  | nil => exact List.prefix_rfl
  | cons row rows ih =>
      rw [takenUp_cons]
      split
      · exact (List.prefix_append requeued [row.id]).trans (ih _)
      · exact ih requeued

theorem mem_or_mem_of_mem_takenUp {tasks : TaskTable} {taskId : String}
    (hmem : taskId ∈ takenUp tasks now rows requeued) :
    taskId ∈ requeued ∨ taskId ∈ idsOf rows := by
  induction rows generalizing requeued with
  | nil => exact Or.inl hmem
  | cons row rows ih =>
      rw [takenUp_cons] at hmem
      rw [idsOf, List.map_cons, List.mem_cons]
      rcases ih hmem with hfirst | hlater
      · split at hfirst
        · rcases List.mem_append.mp hfirst with hold | hnew
          · exact Or.inl hold
          · exact Or.inr (Or.inl (List.mem_singleton.mp hnew))
        · exact Or.inl hfirst
      · exact Or.inr (Or.inr hlater)

theorem nodup_takenUp {tasks : TaskTable} (hrows : (idsOf rows).Nodup) (hrequeued : requeued.Nodup)
    (hfresh : ∀ row ∈ rows, row.id ∉ requeued) : (takenUp tasks now rows requeued).Nodup := by
  induction rows generalizing requeued with
  | nil => exact hrequeued
  | cons row rows ih =>
      rw [idsOf, List.map_cons, List.nodup_cons] at hrows
      rw [takenUp_cons]
      have hrest : ∀ other ∈ rows, other.id ∉ requeued := fun other hother =>
        hfresh other (List.mem_cons_of_mem row hother)
      split
      · refine ih hrows.2 ?_ fun other hother hmem => ?_
        · exact List.nodup_append.mpr ⟨hrequeued, List.nodup_singleton _, fun id hid other hother =>
            ne_of_mem_of_not_mem hid (List.mem_singleton.mp hother ▸ hfresh row List.mem_cons_self)⟩
        · rcases List.mem_append.mp hmem with hold | hnew
          · exact hrest other hother hold
          · rw [← List.mem_singleton.mp hnew] at hrows
            exact hrows.1 (List.mem_map_of_mem hother)
      · exact ih hrows.2 hrequeued hrest

/-- The loop requeues the first failures that are taken up. -/
theorem recoverFailedTasks_run (hafter : IsAfter original world.tasks requeued)
    (hrows : ∀ row ∈ rows, original.lookup row.id = some row ∧ row.status = .failed)
    (hnodup : (idsOf rows).Nodup) (hfresh : ∀ row ∈ rows, row.id ∉ requeued)
    (hcount : requeued.length ≤ maxFailedRecoveriesPerCycle) :
    IsAfter original
      ((recoverFailedTasks now rows requeued.length).run TaskQueue.execute world).2.tasks
      ((takenUp original now rows requeued).take maxFailedRecoveriesPerCycle) := by
  induction rows generalizing requeued world with
  | nil =>
      rw [takenUp, List.take_of_length_le hcount]
      exact hafter
  | cons row rows ih =>
      obtain ⟨hlookup, hfailed⟩ := hrows row List.mem_cons_self
      rw [idsOf, List.map_cons, List.nodup_cons] at hnodup
      have hfound : world.tasks.lookup row.id = some row := by
        rw [hafter row.id, hlookup, Option.map_some, if_neg (hfresh row List.mem_cons_self)]
      have hrest : ∀ other ∈ rows, other.id ∉ requeued := fun other hother =>
        hfresh other (List.mem_cons_of_mem row hother)
      have hothers : ∀ other ∈ rows, original.lookup other.id = some other ∧
          other.status = .failed := fun other hother =>
        hrows other (List.mem_cons_of_mem row hother)
      have hskip := ih hafter hothers hnodup.2 hrest hcount
      rw [recoverFailedTasks, takenUp_cons]
      split
      case isTrue hfull =>
        have hlength : requeued.length = maxFailedRecoveriesPerCycle := le_antisymm hcount hfull
        have hprefix : requeued <+: takenUp original now (row :: rows) requeued :=
          prefix_takenUp original (row :: rows) requeued
        have hprefix := List.prefix_iff_eq_take.mp hprefix
        rw [hlength, takenUp_cons] at hprefix
        rw [← hprefix]
        exact hafter
      case isFalse hroom =>
        have hmay : MayRequeue world.tasks maxRetriesPerTask row ↔
            MayRequeue original maxRetriesPerTask row ∧ waitsFor requeued row = false :=
          mayRequeue_of_isAfter hafter
        have hrun : (requeueFailed row.id maxRetriesPerTask).run TaskQueue.execute world = _ :=
          requeueFailed_run hfound hfailed
        change IsAfter original (Program.run TaskQueue.execute (if maxRetriesPerTask ≤
          (((world.tasks.lookup row.id).map fun row : TaskRow => (⟨row.status, row.retryCount,
            row.parentTaskId, row.allowFailedParent⟩ : FailureView)).elim 0
              FailureView.retryCount : ℕ) then _ else _) world).2.tasks _
        rw [hfound, Option.map_some, Option.elim_some]
        split
        case isTrue hexhausted =>
          have hnotDue : ¬IsDue original now requeued row := fun hisDue =>
            absurd hisDue.2.1.2.1 (not_lt.mpr hexhausted)
          rw [if_neg hnotDue]
          exact hskip
        case isFalse hleft =>
          split
          case isTrue hwarm =>
            have hnotDue : ¬IsDue original now requeued row := fun hisDue =>
              Bool.false_ne_true (hwarm.symm.trans hisDue.1)
            rw [if_neg hnotDue]
            exact hskip
          case isFalse hwarm =>
            have hcooled : isCooledDown now row = true := by simpa using hwarm
            change IsAfter original (Program.run TaskQueue.execute
              ((requeueFailed row.id maxRetriesPerTask).bind _) world).2.tasks _
            rw [Program.run_bind, hrun]
            by_cases hdue : MayRequeue world.tasks maxRetriesPerTask row
            · have hisDue : IsDue original now requeued row := ⟨hcooled, hmay.mp hdue⟩
              rw [if_pos hdue, if_pos hisDue]
              have hlength : requeued.length + 1 = (requeued ++ [row.id]).length := by simp
              change IsAfter original (Program.run TaskQueue.execute
                ((recoverFailedTasks now rows (requeued.length + 1)).bind
                  fun later => .done (row.id :: later)) _).2.tasks _
              rw [Program.run_bind_done_store, hlength]
              refine ih (isAfter_requeue hafter hlookup (hfresh row List.mem_cons_self) hfailed)
                hothers hnodup.2 (fun other hother hmem => ?_) (by rw [← hlength]; omega)
              rcases List.mem_append.mp hmem with hold | hnew
              · exact hrest other hother hold
              · rw [← List.mem_singleton.mp hnew] at hnodup
                exact hnodup.1 (List.mem_map_of_mem hother)
            · have hnotDue : ¬IsDue original now requeued row := fun hisDue =>
                hdue (hmay.mpr hisDue.2)
              rw [if_neg hdue, if_neg hnotDue]
              exact hskip

/-- Which of the failures is among the first that are taken up. -/
theorem mem_take_takenUp_iff {tasks : TaskTable} (hnodup : (idsOf (before ++ row :: after)).Nodup) :
    row.id ∈ (takenUp tasks now (before ++ row :: after) []).take maxFailedRecoveriesPerCycle ↔
      IsDue tasks now (takenUp tasks now before []) row ∧
        (takenUp tasks now before []).length < maxFailedRecoveriesPerCycle := by
  have hall : (takenUp tasks now (before ++ row :: after) []).Nodup :=
    nodup_takenUp hnodup List.nodup_nil fun _ _ => List.not_mem_nil
  rw [idsOf, List.map_append, List.map_cons, List.nodup_append, List.nodup_cons] at hnodup
  obtain ⟨-, ⟨hlater, -⟩, hacross⟩ := hnodup
  have hbefore : row.id ∉ takenUp tasks now before [] := by
    intro hmem
    rcases mem_or_mem_of_mem_takenUp hmem with hnone | hearlier
    · cases hnone
    · exact hacross row.id hearlier row.id List.mem_cons_self rfl
  rw [takenUp_append, takenUp_cons] at hall ⊢
  by_cases hdue : IsDue tasks now (takenUp tasks now before []) row
  · rw [if_pos hdue] at hall ⊢
    have hprefix : takenUp tasks now before [] ++ [row.id] <+:
        takenUp tasks now after (takenUp tasks now before [] ++ [row.id]) :=
      prefix_takenUp tasks after _
    obtain ⟨rest, hrest⟩ := hprefix
    rw [← hrest, List.append_assoc, List.singleton_append] at hall ⊢
    rw [mem_take_append_cons hall, and_iff_right hdue]
  · rw [if_neg hdue, eq_false hdue, false_and, iff_false]
    intro hmem
    rcases mem_or_mem_of_mem_takenUp (List.mem_of_mem_take hmem) with hearlier | hafter
    · exact hbefore hearlier
    · exact hlater hafter

end Loop

/-! ## The tasks after the compaction -/

section Compacted

variable {started : DateTime} {row kept : TaskRow} {taskId : String}

/-- A result is dropped from completed tasks only. -/
theorem exists_row_of_results {after : TaskTable} {count : ℕ}
    (hcompact : compactCompletedResults tasks 7 4 500 started = .ok (count, after))
    (hkept : kept ∈ after.rows) :
    ∃ row ∈ tasks.rows, ∃ result, kept = { row with result } ∧
      (row.status ≠ .completed → result = row.result) := by
  rcases compactCompletedResults_cases hcompact with ⟨hidle, -⟩ | ⟨-, cutoff, -, rfl⟩
  · exact absurd hidle (by decide)
  · obtain ⟨row, hrow, rfl⟩ := Table.mem_mapRows.mp hkept
    refine ⟨row, hrow, ?_⟩
    rw [dropResult]
    split
    case isTrue hdropped =>
      refine ⟨none, rfl, fun hstatus => ?_⟩
      obtain ⟨other, hother, hid, hspent⟩ := exists_row_of_mem_resultCandidates hdropped
      have hcompleted := hspent.1
      rw [Table.eq_of_unique_eq hother hrow hid, isSpent] at hcompleted
      simp only [Bool.and_eq_true, decide_eq_true_eq] at hcompleted
      exact absurd hcompleted.1.1.1 hstatus
    case isFalse => exact ⟨row.result, rfl, fun _ => rfl⟩

/-- A compaction leaves the columns of a failure. -/
theorem exists_row_of_compacted (hkept : (compacted tasks started).lookup taskId = some kept) :
    ∃ row, tasks.lookup taskId = some row ∧ ∃ description result,
      kept = { row with description, result } ∧
        (row.status ≠ .completed → result = row.result) := by
  have hkey := Table.key_of_lookup hkept
  have hmem := Table.mem_of_lookup hkept
  rw [compacted] at hmem
  split at hmem
  case h_1 =>
    rw [← hkey]
    exact ⟨kept, Table.lookup_of_mem hmem, kept.description, kept.result, rfl, fun _ => rfl⟩
  case h_2 count after hcompact =>
    have hbounded : ∃ old ∈ after.rows, kept = boundDescription old := by
      rw [compactHistory, if_neg (by decide), deleteHistory] at hmem
      obtain ⟨old, hold, hsame⟩ := Table.mem_mapRows.mp (Table.mem_deleteWhere.mp hmem).1
      exact ⟨old, hold, hsame.symm⟩
    obtain ⟨old, hold, rfl⟩ := hbounded
    obtain ⟨row, hrow, result, rfl, hresult⟩ := exists_row_of_results hcompact hold
    rw [← hkey]
    exact ⟨row, Table.lookup_of_mem hrow, _, result, rfl, hresult⟩

end Compacted

/-! ## The failures of a cycle -/

section Cycle

variable {rendering : Rendering} {evaluationOnly : String → Bool} {caseIds : List String}
variable {row : TaskRow}

/-- A failure that the planner looks at and would recover. -/
def isChosen (parseResult : ParseResult) (rendering : Rendering) (evaluationOnly : String → Bool)
    (caseIds : List String) (row : TaskRow) : Bool :=
  isRecoverable parseResult rendering row && !evaluationOnly row.id &&
    (decide (caseIds = []) || isBound parseResult caseIds row)

/-- The planner is offered every failed task once. -/
theorem filter_focusedTasks :
    (focusedTasks parseResult tasks evaluationOnly caseIds).filter
        (isRecoverable parseResult rendering) =
      tasks.rows.filter (isChosen parseResult rendering evaluationOnly caseIds) := by
  have hplanned :
      (planningTasks tasks evaluationOnly).filter (isRecoverable parseResult rendering) =
        tasks.rows.filter fun row => isRecoverable parseResult rendering row &&
        !evaluationOnly row.id := by
    rw [planningTasks, List.filter_append, List.filter_append, List.filter_filter,
      List.filter_filter, List.filter_filter]
    have hnone : ∀ condition : TaskRow → Bool,
        (∀ row, condition row = true → row.status = .completed) →
          tasks.rows.filter (fun row =>
            isRecoverable parseResult rendering row && condition row) = [] := by
      intro condition hcompleted
      rw [List.filter_eq_nil_iff]
      intro row _ hboth
      rw [Bool.and_eq_true, isRecoverable, Bool.and_eq_true, TaskRow.isFailed,
        decide_eq_true_eq] at hboth
      rw [hcompleted row hboth.2] at hboth
      exact absurd hboth.1.1 (by decide)
    rw [hnone (fun row => row.status = .completed && !evaluationOnly row.id &&
        row.plannerDecision.isNone && isChildless tasks row) (by simp_all),
      hnone (fun row => row.status = .completed && !evaluationOnly row.id &&
        row.plannerDecision.any (· ∈ openDecisions) && isChildless tasks row) (by simp_all),
      List.append_nil, List.append_nil]
    apply List.filter_congr
    intro row _
    rw [isRecoverable]
    cases row.isFailed <;> simp
  rw [focusedTasks]
  split
  case isTrue hcases =>
    rw [hplanned]
    apply List.filter_congr
    intro row _
    simp [isChosen, hcases]
  case isFalse hcases =>
    rw [List.filter_filter, List.filter_congr (fun row _ => Bool.and_comm _ _),
      ← List.filter_filter, hplanned, List.filter_filter]
    apply List.filter_congr
    intro row _
    simp [isChosen, hcases, Bool.and_comm]

theorem mem_failedTasks :
    row ∈ failedTasks parseResult rendering
        (focusedTasks parseResult tasks evaluationOnly caseIds) ↔
      row ∈ tasks.rows ∧ isChosen parseResult rendering evaluationOnly caseIds row = true := by
  rw [failedTasks, List.mem_insertionSort, filter_focusedTasks, List.mem_filter]

theorem nodup_failedTasks :
    (idsOf (failedTasks parseResult rendering
      (focusedTasks parseResult tasks evaluationOnly caseIds))).Nodup := by
  rw [failedTasks, filter_focusedTasks, idsOf,
    ((List.perm_insertionSort finishedFirst _).map TaskRow.id).nodup_iff]
  exact tasks.primaryKey.sublist (List.filter_sublist.map TaskRow.id)

theorem focusCaseTasks_planningTasks :
    focusCaseTasks parseResult caseIds (planningTasks tasks evaluationOnly) =
      if caseIds = [] ∨
          ∀ other ∈ planningTasks tasks evaluationOnly, isUnhashable parseResult other = false then
        .ok (focusedTasks parseResult tasks evaluationOnly caseIds)
      else .error unhashable := by
  rw [focusCaseTasks, focusedTasks]
  by_cases hcases : caseIds = []
  · simp [hcases]
  · simp only [hcases, if_false, false_or, List.any_eq_true]
    split
    case isTrue hunhashable =>
      obtain ⟨other, hother, hunhashable⟩ := hunhashable
      rw [if_neg fun hall => Bool.false_ne_true ((hall other hother).symm.trans hunhashable)]
    case isFalse hnone =>
      rw [if_pos fun other hother =>
        Bool.eq_false_iff.mpr fun hunhashable => hnone ⟨other, hother, hunhashable⟩]

/-- What stands before a row in a list whose ids are distinct. -/
theorem takeWhile_append_cons {before after : List TaskRow}
    (hnodup : (idsOf (before ++ row :: after)).Nodup) :
    (before ++ row :: after).takeWhile (fun other => other.id ≠ row.id) = before := by
  rw [idsOf, List.map_append, List.nodup_append] at hnodup
  have hbefore : ∀ other ∈ before, decide (other.id ≠ row.id) = true := fun other hother =>
    decide_eq_true (hnodup.2.2 other.id (List.mem_map_of_mem hother) row.id List.mem_cons_self)
  rw [List.takeWhile_append_of_pos hbefore, List.takeWhile_cons_of_neg (by simp), List.append_nil]

theorem lookup_of_mem_failedTasks
    (hrow : row ∈ failedTasks parseResult rendering
      (focusedTasks parseResult tasks evaluationOnly caseIds)) :
    tasks.lookup row.id = some row ∧ row.status = .failed := by
  obtain ⟨hstored, hchosen⟩ := mem_failedTasks.mp hrow
  refine ⟨Table.lookup_of_mem hstored, ?_⟩
  rw [isChosen, isRecoverable] at hchosen
  simp only [Bool.and_eq_true] at hchosen
  exact of_decide_eq_true hchosen.1.1.1

/-- The table after the loop. -/
theorem isAfter_recoverFailedTasks (world : TaskQueue.World) (now : DateTime) :
    IsAfter world.tasks (afterRecovery now (failedTasks parseResult rendering
        (focusedTasks parseResult world.tasks evaluationOnly caseIds)) world).tasks
      ((takenUp world.tasks now (failedTasks parseResult rendering
        (focusedTasks parseResult world.tasks evaluationOnly caseIds)) []).take
          maxFailedRecoveriesPerCycle) :=
  recoverFailedTasks_run (isAfter_nil world.tasks) (fun _ => lookup_of_mem_failedTasks)
    nodup_failedTasks (fun _ _ => List.not_mem_nil) (Nat.zero_le _)

/-- The loop leaves a failure pending if the planner looks at it, it is due, and few
failures are taken up before it. -/
theorem status_recoverFailedTasks_iff {world : TaskQueue.World} {now : DateTime}
    (hrow : row ∈ world.tasks.rows) (hfailed : row.status = .failed) :
    statusOf row.id (afterRecovery now (failedTasks parseResult rendering
        (focusedTasks parseResult world.tasks evaluationOnly caseIds)) world) = some .pending ↔
      isChosen parseResult rendering evaluationOnly caseIds row = true ∧
        IsDue world.tasks now (takenUp world.tasks now
          (triedBefore parseResult world.tasks rendering evaluationOnly caseIds row.id) []) row ∧
        (takenUp world.tasks now (triedBefore parseResult world.tasks rendering evaluationOnly
          caseIds row.id) []).length < maxFailedRecoveriesPerCycle := by
  have hstatus : statusOf row.id (afterRecovery now (failedTasks parseResult rendering
      (focusedTasks parseResult world.tasks evaluationOnly caseIds)) world) = some .pending ↔
      row.id ∈ (takenUp world.tasks now (failedTasks parseResult rendering
        (focusedTasks parseResult world.tasks evaluationOnly caseIds)) []).take
          maxFailedRecoveriesPerCycle := by
    rw [statusOf, isAfter_recoverFailedTasks world now row.id, Table.lookup_of_mem hrow,
      Option.map_some, Option.map_some]
    split
    case isTrue htaken => exact iff_of_true rfl htaken
    case isFalse hleft => simp [hleft, hfailed]
  have hmem : row ∈ failedTasks parseResult rendering
      (focusedTasks parseResult world.tasks evaluationOnly caseIds) ↔ _ := mem_failedTasks
  rw [and_iff_right hrow] at hmem
  rw [hstatus, ← hmem, triedBefore]
  by_cases hchosen : row ∈ failedTasks parseResult rendering
      (focusedTasks parseResult world.tasks evaluationOnly caseIds)
  · rw [and_iff_right hchosen]
    have hnodup : (idsOf (failedTasks parseResult rendering
      (focusedTasks parseResult world.tasks evaluationOnly caseIds))).Nodup := nodup_failedTasks
    obtain ⟨before, after, hsplit⟩ := List.append_of_mem hchosen
    rw [hsplit] at hnodup ⊢
    rw [takeWhile_append_cons hnodup]
    exact mem_take_takenUp_iff hnodup
  · refine iff_of_false (fun htaken => ?_) fun hall => hchosen hall.1
    rcases mem_or_mem_of_mem_takenUp (List.mem_of_mem_take htaken) with hnone | hid
    · cases hnone
    · exact hchosen ((id_mem_idsOf (fun other hother =>
        Table.mem_of_lookup (lookup_of_mem_failedTasks hother).1) hrow).mp hid)

end Cycle

/-! ## Transient failures and the next cycle -/

section Transient

variable {rendering : Rendering} {evaluationOnly : String → Bool} {started now : DateTime}
variable {world : TaskQueue.World} {failure : WorkerFailure} {row : TaskRow}

/-- A transient failure is chosen if its record has the type, is no contract failure, and
names a registered case if there are any. -/
theorem isChosen_iff {caseIds : List String}
    (htransient : IsTransient parseResult tasks rendering evaluationOnly now failure row) :
    isChosen parseResult rendering evaluationOnly caseIds row = true ↔
      (failure.isRaised = false ∧
        (failure.typeName = "RuntimeError" →
          hasContractMessage rendering failure.record = false)) ∧
        (caseIds = [] ∨ isBound parseResult caseIds row = true) := by
  have hrecord : recordOf parseResult row = failure.record := by
    obtain ⟨text, hresult, hparsed⟩ := Option.map_eq_some_iff.mp htransient.record
    rw [recordOf, hresult, Option.elim_some, hparsed]
  rw [isChosen, isRecoverable, hrecord, TaskRow.isFailed, htransient.failed, htransient.planned]
  simp only [decide_true, Bool.true_and, Bool.not_false, Bool.and_true, Bool.and_eq_true,
    Bool.or_eq_true, decide_eq_true_eq, retryableFailure_record_iff htransient.transient]

/-- The next cycle of the planner requeues a transient failure if and only if it takes it up. -/
theorem requeues_iff_isTakenUp
    (htransient : IsTransient parseResult world.tasks rendering evaluationOnly now failure row) :
    statusOf row.id (planRecovery parseResult rendering evaluationOnly started now world) =
        some .pending ↔
      IsTakenUp parseResult (compacted world.tasks started) rendering evaluationOnly
        (registeredCaseIds world.cases) now failure row := by
  rw [planRecovery, focusCaseTasks_planningTasks]
  generalize registeredCaseIds world.cases = caseIds
  generalize hafter :
    ({ world with tasks := compacted world.tasks started } : TaskQueue.World) = after
  have htasks : compacted world.tasks started = after.tasks := by rw [← hafter]
  rw [htasks]
  cases hkept : after.tasks.lookup row.id with
  | none =>
      refine iff_of_false (fun hpending => ?_) fun htaken => ?_
      · have hgone : statusOf row.id after = none := by rw [statusOf, hkept, Option.map_none]
        split at hpending
        case h_1 => rw [hgone] at hpending; cases hpending
        case h_2 focused hfocused =>
          split_ifs at hfocused
          rw [← Except.ok.inj hfocused, statusOf, isAfter_recoverFailedTasks after now row.id,
            hkept] at hpending
          cases hpending
      · obtain ⟨kept, hlookup, -⟩ := htaken.kept
        rw [hkept] at hlookup
        cases hlookup
  | some kept =>
      have hcolumns : ∃ description, kept = { row with description } := by
        rw [← htasks] at hkept
        obtain ⟨old, hold, description, result, rfl, hresult⟩ := exists_row_of_compacted hkept
        rw [Table.lookup_of_mem htransient.stored, Option.some.injEq] at hold
        subst hold
        rw [hresult (by rw [htransient.failed]; decide)]
        exact ⟨description, rfl⟩
      obtain ⟨description, rfl⟩ := hcolumns
      by_cases hhashable : caseIds = [] ∨ ∀ other ∈ planningTasks after.tasks evaluationOnly,
          isUnhashable parseResult other = false
      · rw [if_pos hhashable]
        have hmem := Table.mem_of_lookup hkept
        refine (status_recoverFailedTasks_iff hmem htransient.failed).trans ?_
        change isChosen parseResult rendering evaluationOnly caseIds row = true ∧
          IsDue after.tasks now _ row ∧ _ ↔ _
        rw [isChosen_iff htransient]
        constructor
        · rintro ⟨⟨⟨htyped, hplain⟩, hbound⟩, ⟨-, hmay, hfree⟩, hfew⟩
          exact ⟨htyped, hplain, hbound, hhashable, ⟨_, hkept, hmay⟩, hfew, hfree⟩
        · rintro ⟨htyped, hplain, hbound, -, ⟨other, hother, hmay⟩, hfew, hfree⟩
          rw [hkept, Option.some.injEq] at hother
          subst hother
          exact ⟨⟨⟨htyped, hplain⟩, hbound⟩, ⟨htransient.cooledDown, hmay, hfree⟩, hfew⟩
      · rw [if_neg hhashable]
        refine iff_of_false (fun hpending => ?_) fun htaken => hhashable htaken.hashable
        change statusOf row.id after = _ at hpending
        rw [statusOf, hkept, Option.map_some, htransient.failed] at hpending
        cases hpending

end Transient

/-! ## Concrete failures -/

namespace Sample

open AegisForge.Shared.TaskQueue.Sample

/-- The agent raised a timeout. -/
def raisedTimeout : WorkerFailure := .raised "TimeoutError" "timed out" "Traceback"

/-- The agent reported a timeout. -/
def reportedTimeout : WorkerFailure :=
  .reported [("error", .text "timed out"), ("error_type", .text "TimeoutError")] "TimeoutError" rfl

/-- A task that failed at noon, with a stored record. -/
def timedOut : TaskQueue.World :=
  (pool [.start (.add (task "task-1" none false)), .advance 0,
    .start (.claim "worker-1" none noon), .advance 1, .advance 1,
    .start (.fail "worker-1" "task-1" (some (.ok "record")) noon), .advance 2]).history.store

def timedOutRow : TaskRow where
  id := "task-1"
  description := "sample"
  status := .failed
  worker := some "worker-1"
  createdAt := noon.isoText
  startedAt := some noon.isoText
  finishedAt := some noon.isoText
  role := none
  parentTaskId := none
  result := some "record"
  retryCount := 0
  capabilityIntent := none
  allowFailedParent := false
  researchCaseId := none
  roundId := none
  plannerDecision := none

def rendering : Rendering where
  shown := fun _ => ""
  upper := id

theorem isTransient_timedOut {failure : WorkerFailure} (htype : failure.typeName = "TimeoutError") :
    IsTransient (fun _ => failure.record) timedOut.tasks rendering (fun _ => false) later failure
      timedOutRow where
  stored := by decide +kernel
  failed := rfl
  planned := rfl
  record := rfl
  transient := by
    rw [htype]
    decide
  ready := by decide +kernel
  cooledDown := by decide +kernel
  few := by
    have hrows : timedOut.tasks.rows = [timedOutRow] := by decide +kernel
    rw [hrows]
    exact List.countP_le_length.trans_lt (by decide)

end Sample

/-- A reported timeout is requeued half an hour later exactly if it is taken up. -/
theorem requeues_iff_isTakenUp_reportedTimeout :
    statusOf "task-1" (planRecovery (fun _ => Sample.reportedTimeout.record) Sample.rendering
        (fun _ => false) TaskQueue.Sample.later TaskQueue.Sample.later Sample.timedOut) =
          some .pending ↔
      IsTakenUp (fun _ => Sample.reportedTimeout.record)
        (compacted Sample.timedOut.tasks TaskQueue.Sample.later) Sample.rendering (fun _ => false)
        (registeredCaseIds Sample.timedOut.cases) TaskQueue.Sample.later Sample.reportedTimeout
        Sample.timedOutRow :=
  requeues_iff_isTakenUp (Sample.isTransient_timedOut rfl)

/-- A timeout that the agent raised is not requeued. -/
theorem not_requeued_raisedTimeout :
    ¬∀ (parseResult : ParseResult) (rendering : Rendering) (evaluationOnly : String → Bool)
      (started now : DateTime) (world : TaskQueue.World) (failure : WorkerFailure) (row : TaskRow),
      IsTransient parseResult world.tasks rendering evaluationOnly now failure row →
        statusOf row.id (planRecovery parseResult rendering evaluationOnly started now world) =
          some .pending := by
  intro hall
  have hpending := hall _ _ _ TaskQueue.Sample.later _ _ _ _
    (Sample.isTransient_timedOut (show Sample.raisedTimeout.typeName = _ from rfl))
  exact absurd hpending (by decide +kernel)

end AegisForge.Orchestrator.FailureRecovery
