import AegisForge.Core.IntegerText
import AegisForge.Shared.ResearchCaseRegistry

/-!
# The task queue

The rows of `queue` and the operations of `TaskQueue` on them as programs of
committed statements and transactions.  What a worker does between its claim
and its report is outside.
-/

namespace AegisForge.Shared.TaskQueue

open AegisForge.Core AegisForge.Concurrency
open AegisForge.Shared.ResearchCaseRegistry (CaseTable)

/-! ## Rows -/

inductive TaskStatus
  | pending
  | running
  | completed
  | failed
  deriving DecidableEq, Repr

/-- A row of `queue`. -/
structure TaskRow where
  id : String
  description : String
  status : TaskStatus
  worker : Option String
  createdAt : String
  startedAt : Option String
  finishedAt : Option String
  role : Option String
  parentTaskId : Option String
  result : Option String
  retryCount : ℕ
  capabilityIntent : Option String
  allowFailedParent : Bool
  researchCaseId : Option String
  roundId : Option String
  plannerDecision : Option String
  deriving DecidableEq

abbrev TaskTable := Table TaskRow.id TaskRow.id

namespace TaskRow

variable (row : TaskRow)

def claimed (worker startedAt : String) : TaskRow :=
  { row with status := .running, worker := some worker, startedAt := some startedAt }

def recovered : TaskRow := { row with status := .pending, worker := none, startedAt := none }

def requeued : TaskRow :=
  { row with
    status := .pending
    worker := none
    startedAt := none
    finishedAt := none
    retryCount := row.retryCount + 1 }

/-- The row after `finish` or `fail`. -/
def reported (status : TaskStatus) (result : Option String) (finishedAt : String) : TaskRow :=
  { row with status, result, finishedAt := some finishedAt }

def isRunning : Bool := row.status = .running

def isPending : Bool := row.status = .pending

def isFailed : Bool := row.status = .failed

theorem id_claimed (worker startedAt : String) (row : TaskRow) :
    (row.claimed worker startedAt).id = row.id := rfl

theorem id_recovered (row : TaskRow) : row.recovered.id = row.id := rfl

theorem id_requeued (row : TaskRow) : row.requeued.id = row.id := rfl

theorem id_reported (status : TaskStatus) (result : Option String) (finishedAt : String)
    (row : TaskRow) : (row.reported status result finishedAt).id = row.id := rfl

end TaskRow

/-! ## Eligible tasks -/

/-- The parent is completed and has a result. -/
def parentReady (tasks : TaskTable) (parentId : String) : Bool :=
  (tasks.lookup parentId).any fun parent => parent.status = .completed && parent.result.isSome

/-- There is no parent, or it is completed and has a result. -/
def isReady (tasks : TaskTable) (row : TaskRow) : Bool :=
  match row.parentTaskId with
  | none => true
  | some parentId => parentReady tasks parentId

/-- `if role: ... AND q.role = ?`. -/
def hasRole (role : Option String) (row : TaskRow) : Bool :=
  match role with
  | none => true
  | some role => role = "" || row.role = some role

/-- `ORDER BY q.created_at`. -/
def byCreation (rows : List TaskRow) : List TaskRow :=
  rows.insertionSort fun left right => left.createdAt ≤ right.createdAt

def isListed (tasks : TaskTable) (role : Option String) (row : TaskRow) : Bool :=
  row.isPending && isReady tasks row && hasRole role row

def isClaimable (tasks : TaskTable) (role : Option String) (row : TaskRow) : Bool :=
  row.isPending && hasRole role row && (row.allowFailedParent || isReady tasks row)

/-- `TaskQueue.pending`: ids and descriptions. -/
def pending (tasks : TaskTable) (role : Option String) : List (String × String) :=
  (byCreation (tasks.rows.filter (isListed tasks role))).map fun row => (row.id, row.description)

/-- The transaction of `TaskQueue.claim`: the claimed id. -/
def claimNext (worker : String) (role : Option String) (startedAt : String) (tasks : TaskTable) :
    Option String × TaskTable :=
  match (byCreation (tasks.rows.filter (isClaimable tasks role))).head? with
  | none => (none, tasks)
  | some row =>
      let (updated, after) := tasks.updateWhere row.id TaskRow.isPending
        (fun row => row.claimed worker startedAt)
        (TaskRow.id_claimed worker startedAt) (TaskRow.id_claimed worker startedAt)
      if updated then (some row.id, after) else (none, tasks)

/-! ## Updates of one task -/

/-- The update of `finish` and `fail`; whether the task was running. -/
def report (taskId : String) (status : TaskStatus) (result : Option String) (finishedAt : String)
    (tasks : TaskTable) : Bool × TaskTable :=
  tasks.updateWhere taskId TaskRow.isRunning (fun row => row.reported status result finishedAt)
    (TaskRow.id_reported status result finishedAt) (TaskRow.id_reported status result finishedAt)

/-- The update of `requeue_failed`. -/
def requeue (taskId : String) (tasks : TaskTable) : Bool × TaskTable :=
  tasks.updateWhere taskId TaskRow.isFailed TaskRow.requeued TaskRow.id_requeued
    TaskRow.id_requeued

/-- The updates of `recover_stale_running`, which are one transaction: the ids of
the tasks that were still running. -/
def recover : List String → TaskTable → List String × TaskTable
  | [], tasks => ([], tasks)
  | taskId :: rest, tasks =>
      let (updated, after) := tasks.updateWhere taskId TaskRow.isRunning TaskRow.recovered
        TaskRow.id_recovered TaskRow.id_recovered
      let (recovered, last) := recover rest after
      (if updated then taskId :: recovered else recovered, last)

/-! ## The store -/

/-- An entry of `pending_human_review`. -/
structure HumanReview where
  id : String
  caseId : String
  isOpen : Bool
  createdAt : String
  deriving DecidableEq

/-- A row of `research_case_rounds`. -/
structure CaseRound where
  roundId : String
  caseId : String
  roundNumber : ℕ
  rootTaskId : String
  deriving DecidableEq

/-- The tables, and the workers whose processes have ended. -/
structure World where
  tasks : TaskTable
  cases : CaseTable
  reviews : List HumanReview
  rounds : Table CaseRound.roundId CaseRound.rootTaskId
  departed : List String

/-- What `requeue_failed` reads of a task. -/
structure FailureView where
  status : TaskStatus
  retryCount : ℕ
  parentTaskId : Option String
  allowFailedParent : Bool

/-! ## Statements -/

inductive Statement
  | cases (statement : ResearchCaseRegistry.Statement)
  | selectBinding (taskId : String)
  | insertTask (row : TaskRow)
  | claimNext (worker : String) (role : Option String) (startedAt : String)
  | selectTask (taskId : String)
  | selectRunning
  | recover (taskIds : List String)
  | selectFailure (taskId : String)
  | selectOutcome (taskId : String)
  | requeue (taskId : String)
  | report (taskId : String) (status : TaskStatus) (result : Option String) (finishedAt : String)
  | depart (worker : String)

def Statement.Reply : Statement → Type
  | .cases statement => statement.Reply
  | .selectBinding _ => Option (Option String × Option String)
  | .insertTask _ => Bool
  | .claimNext _ _ _ => Option String
  | .selectTask _ => Option TaskRow
  | .selectRunning => List TaskRow
  | .recover _ => List String
  | .selectFailure _ => Option FailureView
  | .selectOutcome _ => Option (TaskStatus × Option String)
  | .requeue _ => Bool
  | .report _ _ _ _ => Bool
  | .depart _ => Unit

/-- `WHERE status = 'running' AND started_at IS NOT NULL ORDER BY started_at`. -/
def runningRows (tasks : TaskTable) : List TaskRow :=
  (tasks.rows.filter fun row => row.isRunning && row.startedAt.isSome).insertionSort
    fun left right => left.startedAt.getD "" ≤ right.startedAt.getD ""

def execute : Concurrency.Execution Statement.Reply World
  | .cases statement, world =>
      let (reply, cases) := ResearchCaseRegistry.execute statement world.cases
      (reply, { world with cases })
  | .selectBinding taskId, world =>
      ((world.tasks.lookup taskId).map fun row => (row.researchCaseId, row.roundId), world)
  | .insertTask row, world =>
      match world.tasks.insert? row with
      | none => (false, world)
      | some tasks => (true, { world with tasks })
  | .claimNext worker role startedAt, world =>
      let (claimed, tasks) := claimNext worker role startedAt world.tasks
      (claimed, { world with tasks })
  | .selectTask taskId, world => (world.tasks.lookup taskId, world)
  | .selectRunning, world => (runningRows world.tasks, world)
  | .recover taskIds, world =>
      let (recovered, tasks) := recover taskIds world.tasks
      (recovered, { world with tasks })
  | .selectFailure taskId, world =>
      ((world.tasks.lookup taskId).map fun row =>
        ⟨row.status, row.retryCount, row.parentTaskId, row.allowFailedParent⟩, world)
  | .selectOutcome taskId, world =>
      ((world.tasks.lookup taskId).map fun row => (row.status, row.result), world)
  | .requeue taskId, world =>
      let (updated, tasks) := requeue taskId world.tasks
      (updated, { world with tasks })
  | .report taskId status result finishedAt, world =>
      let (updated, tasks) := report taskId status result finishedAt world.tasks
      (updated, { world with tasks })
  | .depart worker, world => ((), { world with departed := worker :: world.departed })

def send (statement : Statement) : Program Statement.Reply Raised statement.Reply :=
  .call statement

def valueError (message : String) : Raised := ⟨.valueError, message⟩

/-! ## Adding tasks -/

/-- `MAX_DESCRIPTION_BYTES`. -/
def maxDescriptionBytes : ℕ := 4096

/-- `MAX_CAPABILITY_INTENT_BYTES`. -/
def maxCapabilityIntentBytes : ℕ := 8192

/-- The characters that fit into `count` bytes, an incomplete last one dropped. -/
def takeBytes : ℕ → List Char → List Char
  | _, [] => []
  | count, character :: rest =>
      if character.utf8Size ≤ count then
        character :: takeBytes (count - character.utf8Size) rest
      else []

def truncationMark : List Char := "\n...[truncated]".toList

/-- `TaskQueue._bounded_description`. -/
def boundedDescription (description : String) : String :=
  if description.utf8ByteSize ≤ maxDescriptionBytes then description
  else String.ofList
    (takeBytes (maxDescriptionBytes - truncationMark.length) description.toList ++ truncationMark)

/-- The arguments of `TaskQueue.add`, with the id that `uuid4` answers. -/
structure NewTask where
  taskId : String
  description : Option String
  role : Option String
  parentTaskId : Option String
  capabilityIntent : Option Json
  allowFailedParent : Bool
  researchCaseId : Option String
  roundId : Option String
  createdAt : DateTime

/-- A text is true as a condition. -/
def isFilled (value : Option String) : Bool := value.any (· ≠ "")

/-- The case of a task with a parent. -/
def inheritCase (researchCaseId : Option String) (parent : Option (Option String × Option String)) :
    Except Raised (Option String) :=
  let parentCaseId := parent.bind Prod.fst
  if researchCaseId = none ∧ isFilled parentCaseId = true then .ok parentCaseId
  else if researchCaseId ≠ parentCaseId then
    if parent.isNone then .error (valueError "research_case_parent_task_not_found")
    else .error (valueError "research_case_parent_mismatch")
  else .ok researchCaseId

/-- The round of a task with a parent; that of a missing parent is not checked. -/
def inheritRound (roundId : Option String) (parent : Option (Option String × Option String)) :
    Except Raised (Option String) :=
  match parent with
  | none => .ok roundId
  | some (_, parentRoundId) =>
      if roundId = none ∧ isFilled parentRoundId = true then .ok parentRoundId
      else if roundId ≠ parentRoundId then
        .error (valueError "research_case_round_parent_mismatch")
      else .ok roundId

/-- The case and the round that a task is stored with. -/
def bindToParent (task : NewTask) :
    Program Statement.Reply Raised (Option String × Option String) :=
  match task.parentTaskId.filter (· ≠ "") with
  | none => .done (task.researchCaseId, task.roundId)
  | some parentId => do
      let parent : Option (Option String × Option String) ← send (.selectBinding parentId)
      let researchCaseId ← Program.ofExcept (inheritCase task.researchCaseId parent)
      let roundId ← Program.ofExcept (inheritRound task.roundId parent)
      return (researchCaseId, roundId)

/-- `TaskQueue.get_research_case`. -/
def getResearchCase (caseId : String) : Program Statement.Reply Raised (Option ResearchCase) :=
  if caseId = "" then .done none
  else do
    let payload : Option String ← send (.cases (.selectPayload caseId))
    Program.ofExcept (ResearchCaseRegistry.readCase payload)

/-- The check of the case that a task is bound to. -/
def checkCase (researchCaseId : Option String) : Program Statement.Reply Raised PUnit :=
  match researchCaseId with
  | none => .done ⟨⟩
  | some caseId => do
      let case ← getResearchCase caseId
      Program.raiseIf (case.isNone = true) (valueError "research_case_not_registered")
      let _ ← Program.ofExcept (validateTaskBinding case (some caseId))
      return ⟨⟩

/-- The stored text of an intent. -/
def intentText : Option Json → Except Raised (Option String)
  | none => .ok none
  | some intent =>
      if intent.isObject = false then
        .error ⟨.typeError, "capability_intent must be a dict or None"⟩
      else
        let text := String.ofList (intent.sortKeys.encode true)
        if maxCapabilityIntentBytes < text.utf8ByteSize then
          .error (valueError "capability_intent exceeds bounded storage size")
        else .ok (some text)

/-- The row that `add` inserts. -/
def NewTask.row (task : NewTask) (researchCaseId roundId capabilityIntent : Option String) :
    TaskRow where
  id := task.taskId
  description := boundedDescription (task.description.getD "")
  status := .pending
  worker := none
  createdAt := task.createdAt.isoText
  startedAt := none
  finishedAt := none
  role := task.role
  parentTaskId := task.parentTaskId
  result := none
  retryCount := 0
  capabilityIntent := capabilityIntent
  allowFailedParent := task.allowFailedParent
  researchCaseId := researchCaseId
  roundId := roundId
  plannerDecision := none

/-- `role in CASE_REQUIRED_ROLES`. -/
def needsCase (role : Option String) : Bool := role.any (· ∈ caseRequiredRoles)

def caseRequiredError (role : String) : Raised :=
  valueError s!"research_case_id_required_for_role:{role}"

/-- `TaskQueue.add`. -/
def add (task : NewTask) : Program Statement.Reply Raised String := do
  let binding ← bindToParent task
  Program.raiseIf (needsCase task.role = true ∧ isFilled binding.1 = false)
    (caseRequiredError (task.role.getD ""))
  checkCase binding.1
  let capabilityIntent ← Program.ofExcept (intentText task.capabilityIntent)
  let inserted : Bool ← send (.insertTask (task.row binding.1 binding.2 capabilityIntent))
  Program.raiseIf (inserted = false) ⟨.integrityError, "UNIQUE constraint failed: queue.id"⟩
  return task.taskId

/-! ## Claims -/

/-- `TaskQueue.claim`. -/
def claim (worker : String) (role : Option String) (now : DateTime) :
    Program Statement.Reply Raised (Option TaskRow) := do
  let claimed : Option String ← send (.claimNext worker role now.isoText)
  match claimed with
  | none => return none
  | some taskId => send (.selectTask taskId)

/-! ## Recovery of stale tasks -/

/-- What `os.kill(pid, 0)` answers. -/
inductive KillAnswer
  | delivered
  | noSuchProcess
  | notPermitted
  | otherError
  deriving DecidableEq

/-- `TaskQueue._worker_pid`: the number after the last hyphen of the name. -/
def workerPid (worker : Option String) : Option ℤ := do
  let name ← worker.filter (· ≠ "")
  decimal? (String.ofList ((name.toList.reverse.takeWhile (· ≠ '-')).reverse))

/-- `TaskQueue._worker_alive`. -/
def workerAlive (kill : ℤ → KillAnswer) (worker : Option String) : Except Raised Bool :=
  match workerPid worker with
  | none => .ok false
  | some pid =>
      if pid ≤ 0 then .ok false
      else if 2147483647 < pid then
        .error ⟨.overflowError, "signed integer is greater than maximum"⟩
      else .ok (kill pid ∈ [.delivered, .notPermitted])

/-- The task was started before the cutoff by a worker that seems to be gone. -/
def isStale (kill : ℤ → KillAnswer) (cutoff : ℤ) (row : TaskRow) : Except Raised Bool :=
  match row.startedAt.bind fun startedAt => DateTime.fromisoformat startedAt.toList with
  | none => .ok false
  | some started =>
      if started.offset = none then
        .error ⟨.typeError, "can't compare offset-naive and offset-aware datetimes"⟩
      else if cutoff < started.instant then .ok false
      else (workerAlive kill row.worker).map (!·)

/-- `now - timedelta(minutes=stale_minutes)`. -/
def staleCutoff (now : DateTime) (staleMinutes : ℤ) : ℤ := now.instant - staleMinutes * 60000000

/-- `TaskQueue.recover_stale_running`. -/
def recoverStaleRunning (staleMinutes : ℤ) (now : DateTime) (kill : ℤ → KillAnswer) :
    Program Statement.Reply Raised (List String) := do
  let rows : List TaskRow ← send .selectRunning
  let stale ← Program.ofExcept (rows.filterM (isStale kill (staleCutoff now staleMinutes)))
  send (.recover (stale.map TaskRow.id))

/-! ## Requeues -/

/-- Whether the parent allows another attempt. -/
def parentAllows (allowFailedParent : Bool) : Option (TaskStatus × Option String) → Bool
  | none => false
  | some (status, result) =>
      result.isSome && (status = .completed || status = .failed && allowFailedParent)

/-- `TaskQueue.requeue_failed`. -/
def requeueFailed (taskId : String) (maxRetries : ℤ) : Program Statement.Reply Raised Bool := do
  let found : Option FailureView ← send (.selectFailure taskId)
  match found with
  | none => return false
  | some task =>
      if task.status ≠ .failed ∨ maxRetries ≤ task.retryCount then return false
      else
        match task.parentTaskId.filter (· ≠ "") with
        | none => send (.requeue taskId)
        | some parentId => do
            let parent : Option (TaskStatus × Option String) ← send (.selectOutcome parentId)
            if parentAllows task.allowFailedParent parent = true then send (.requeue taskId)
            else return false

/-! ## Reports -/

/-- A result as `result_codec.encode` returns it, or the text of its exception. -/
abbrev EncodedResult := Except String String

/-- `TaskQueue.finish`. -/
def finish (taskId : String) (result : Option EncodedResult) (now : DateTime) :
    Program Statement.Reply Raised PUnit :=
  match result with
  | none => .fail (valueError s!"Cannot complete task {taskId}: result is None")
  | some (.error message) =>
      .fail (valueError
        s!"Cannot complete task {taskId}: result is not JSON serializable: {message}")
  | some (.ok encoded) => do
      let updated : Bool ← send (.report taskId .completed (some encoded) now.isoText)
      Program.raiseIf (updated = false)
        ⟨.runtimeError, s!"Cannot complete task {taskId}: task is not in running state"⟩

/-- `TaskQueue.fail`. -/
def fail (taskId : String) (result : Option EncodedResult) (now : DateTime) :
    Program Statement.Reply Raised PUnit :=
  match result with
  | some (.error message) =>
      .fail (valueError
        s!"Cannot fail task {taskId}: result is not JSON serializable: {message}")
  | some (.ok encoded) => reportFailure (some encoded)
  | none => reportFailure none
where
  reportFailure (result : Option String) : Program Statement.Reply Raised PUnit := do
    let updated : Bool ← send (.report taskId .failed result now.isoText)
    Program.raiseIf (updated = false)
      ⟨.runtimeError, s!"Cannot fail task {taskId}: task is not in running state"⟩

/-! ## Calls of workers -/

/-- The calls, with the worker that makes a recovery or a report.  A departure is
the end of a worker's process. -/
inductive QueueCall
  | registerResearchCase (case : ResearchCase)
  | add (task : NewTask)
  | claim (worker : String) (role : Option String) (now : DateTime)
  | recoverStaleRunning (caller : String) (staleMinutes : ℤ) (now : DateTime)
      (kill : ℤ → KillAnswer)
  | requeueFailed (taskId : String) (maxRetries : ℤ)
  | finish (caller taskId : String) (result : Option EncodedResult) (now : DateTime)
  | fail (caller taskId : String) (result : Option EncodedResult) (now : DateTime)
  | depart (worker : String)

inductive Answer
  | text (value : String)
  | task (row : Option TaskRow)
  | recovered (taskIds : List String)
  | flag (value : Bool)
  | none

def QueueCall.body : QueueCall → Program Statement.Reply Raised Answer
  | .registerResearchCase case => do
      let caseId ← (ResearchCaseRegistry.registerResearchCase case).embed .cases fun _ reply => reply
      return .text caseId
  | .add task => do return .text (← TaskQueue.add task)
  | .claim worker role now => do return .task (← TaskQueue.claim worker role now)
  | .recoverStaleRunning _ staleMinutes now kill => do
      return .recovered (← TaskQueue.recoverStaleRunning staleMinutes now kill)
  | .requeueFailed taskId maxRetries => do
      return .flag (← TaskQueue.requeueFailed taskId maxRetries)
  | .finish _ taskId result now => do
      TaskQueue.finish taskId result now
      return .none
  | .fail _ taskId result now => do
      TaskQueue.fail taskId result now
      return .none
  | .depart worker => do
      let _ ← send (.depart worker)
      return .none

abbrev QueuePool := Pool QueueCall Statement.Reply World Raised Answer

abbrev QueueHistory := History Statement World

end AegisForge.Shared.TaskQueue
