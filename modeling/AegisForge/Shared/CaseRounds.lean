import AegisForge.Core.PyValue
import AegisForge.Shared.TaskQueue

/-!
# New rounds of a case

`start_case_round` is one transaction: it refuses unless the case is registered,
runnable and idle, and then adds a root task together with the record of its round.
-/

namespace AegisForge.Shared.TaskQueue

open AegisForge.Core AegisForge.Concurrency

def caseRoundError (message : String) : Raised := ⟨.caseRoundError, message⟩

/-- What `start_case_round` returns. -/
structure StartedRound where
  caseId : String
  roundNumber : ℕ
  roundId : String
  rootTaskId : String
  createdAt : String

def TaskStatus.value : TaskStatus → String
  | .pending => "pending"
  | .running => "running"
  | .completed => "completed"
  | .failed => "failed"

/-! ## What blocks a round -/

/-- The tasks of a case. -/
def ofCase (caseId : String) (tasks : TaskTable) : List TaskRow :=
  tasks.rows.filter fun row => row.researchCaseId = some caseId

/-- The oldest task of the case that is pending or running. -/
def activeTask (caseId : String) (tasks : TaskTable) : Option TaskRow :=
  (byCreation ((ofCase caseId tasks).filter fun row => row.isPending || row.isRunning)).head?

/-- The oldest open review of the case. -/
def openReview (caseId : String) (reviews : List HumanReview) : Option HumanReview :=
  ((reviews.filter fun review => review.caseId = caseId && review.isOpen).insertionSort
    fun left right => left.createdAt ≤ right.createdAt).head?

/-- `ORDER BY finished_at, created_at`. -/
def finishedBefore (left right : TaskRow) : Prop :=
  left.finishedAt.getD "" < right.finishedAt.getD "" ∨
    left.finishedAt.getD "" = right.finishedAt.getD "" ∧ left.createdAt ≤ right.createdAt

instance : DecidableRel finishedBefore := fun _ _ => inferInstanceAs (Decidable (_ ∨ _ ∧ _))

/-- The task of the case that failed first. -/
def failedTask (caseId : String) (tasks : TaskTable) : Option TaskRow :=
  (((ofCase caseId tasks).filter TaskRow.isFailed).insertionSort finishedBefore).head?

/-- A column in a message. -/
def columnText (column : Option String) : String := column.getD "None"

def activeTaskError (task : TaskRow) : Raised :=
  let role := columnText task.role
  let status := task.status.value
  caseRoundError s!"case_round_already_active:task={task.id}:role={role}:status={status}"

def openReviewError (review : HumanReview) : Raised :=
  caseRoundError s!"case_round_blocked_human_review:review={review.id}"

def failedTaskError (task : TaskRow) : Raised :=
  let role := columnText task.role
  caseRoundError s!"case_round_blocked_failed_tasks:task={task.id}:role={role}"

/-! ## Numbers of rounds -/

/-- `SELECT COALESCE(MAX(round_number), 0) + 1`. -/
def nextRecordedNumber (caseId : String)
    (rounds : Table CaseRound.roundId CaseRound.rootTaskId) : ℕ :=
  ((rounds.rows.filter (·.caseId = caseId)).map CaseRound.roundNumber).foldr max 0 + 1

/-- The roots of the case. -/
def historicalRoots (caseId : String) (tasks : TaskTable) : ℕ :=
  ((ofCase caseId tasks).filter fun row =>
    row.role = some "source_researcher" && row.parentTaskId.isNone).length

def nextRoundNumber (caseId : String) (world : World) : ℕ :=
  max (nextRecordedNumber caseId world.rounds) (historicalRoots caseId world.tasks + 1)

/-! ## The transaction -/

def roundDescription (case : ResearchCase) (roundNumber : ℕ) (roundId : String) : String :=
  s!"[CASE ROUND {roundNumber} run_id={roundId}] Continue registered " ++
  s!"EVM Key Forensics case {case.caseId}. Target: " ++
  s!"{case.targetRepository}@{case.targetCommit}. Approved scope: " ++
  s!"{case.scopeUrl} (SHA-256 {case.scopeDigest}). Hypothesis: " ++
  s!"{case.hypothesis}. Re-evaluate prior evidence and identify a " ++
  "materially distinct falsifiable next step. Preserve evidence continuity; " ++
  "do not repeat completed work without a documented reason. Use immutable " ++
  "public sources and local/synthetic experiments only. Do not execute " ++
  "live-network actions, handle wallet/key material, or mark a finding CONFIRMED."

/-- The root task of a round. -/
def rootTask (caseId roundId rootTaskId description createdAt : String) : TaskRow where
  id := rootTaskId
  description := boundedDescription description
  status := .pending
  worker := none
  createdAt := createdAt
  startedAt := none
  finishedAt := none
  role := some "source_researcher"
  parentTaskId := none
  result := none
  retryCount := 0
  capabilityIntent := none
  allowFailedParent := false
  researchCaseId := some caseId
  roundId := some roundId
  plannerDecision := none

/-- The registered case that a new round may be started for. -/
def runnableCase (caseId : String) (world : World) : Except Raised ResearchCase := do
  let found ← ResearchCaseRegistry.getResearchCase world.cases caseId
  let case ← orRaise (caseRoundError "research_case_not_registered") found
  raiseUnless (case.status.isRunnable = true)
    (caseRoundError s!"research_case_not_runnable:{case.status.value}")
  validateTaskBinding (some case) (some caseId)

/-- Nothing of the case is active, under review or failed. -/
def checkIdle (caseId : String) (world : World) : Except Raised Unit := do
  if let some task := activeTask caseId world.tasks then MonadExcept.throw (activeTaskError task)
  if let some review := openReview caseId world.reviews then
    MonadExcept.throw (openReviewError review)
  if let some task := failedTask caseId world.tasks then MonadExcept.throw (failedTaskError task)

/-- The inserts of a round; its number is greater than those of the case. -/
def insertRound (case : ResearchCase) (caseId roundId rootTaskId createdAt : String)
    (world : World) : Except Raised (StartedRound × World) := do
  let roundNumber := nextRoundNumber caseId world
  let description := roundDescription case roundNumber roundId
  let tasks ← orRaise ⟨.integrityError, "UNIQUE constraint failed: queue.id"⟩
    (world.tasks.insert? (rootTask caseId roundId rootTaskId description createdAt))
  let rounds ← orRaise
    ⟨.integrityError, "UNIQUE constraint failed: research_case_rounds.round_id"⟩
    (world.rounds.insert? ⟨roundId, caseId, roundNumber, rootTaskId⟩)
  return (⟨caseId, roundNumber, roundId, rootTaskId, createdAt⟩, { world with tasks, rounds })

/-- `start_case_round` with the two ids that `uuid4` answers. -/
def startCaseRound (caseId : PyValue) (roundId rootTaskId : String) (now : DateTime)
    (world : World) : Except Raised (StartedRound × World) := do
  let caseId ← orRaise (caseRoundError "case_id_required")
    (caseId.text?.filter fun text => !isBlank text)
  let case ← runnableCase caseId world
  checkIdle caseId world
  insertRound case caseId roundId rootTaskId now.isoText world

end AegisForge.Shared.TaskQueue
