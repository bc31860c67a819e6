import AegisForge.Shared.Database

/-!
# The execution attempt store

Attempts are created once for each idempotency key and number, and move along
the allowed transitions by updates that are guarded by the state they read.
-/

namespace AegisForge.Shared.ExecutionAttemptStore

open AegisForge.Core AegisForge.Concurrency

def attemptError (message : String) : Raised := ⟨.executionAttemptError, message⟩

def get (attemptId : String) : Action ExecutionAttempt := do
  let row ← send (.selectAttempt attemptId)
  match row with
  | none => .fail (attemptError "attempt_not_found")
  | some attempt => pure attempt

def findByGrantId (grantId : String) : Action (Option ExecutionAttempt) := do
  let row ← send (.selectAttemptIdByGrant grantId)
  match row with
  | none => pure none
  | some attemptId => do
      let attempt ← get attemptId
      pure (some attempt)

def findByIdempotencyKey (idempotencyKey : String) : Action (Option ExecutionAttempt) := do
  let row ← send (.selectLatestAttemptId idempotencyKey)
  match row with
  | none => pure none
  | some attemptId => do
      let attempt ← get attemptId
      pure (some attempt)

/-- The number of the next attempt, or why there is none. -/
def nextNumber (previous : Option ExecutionAttempt) (retry : Bool) : Except Raised ℕ :=
  match previous with
  | none => .ok 1
  | some attempt =>
      if attempt.state ∉ ExecutionAttemptState.terminal then
        .error (attemptError "idempotency_key_active")
      else if retry = false then .error (attemptError "idempotency_key_reused")
      else .ok (attempt.attemptNumber + 1)

/-- `create`, where `uuid` is what `uuid.uuid4().hex` draws. -/
def create (taskId grantId intentHash idempotencyKey : String) (now : Option Time)
    (retry : Bool) (uuid : String) : Action ExecutionAttempt := do
  Program.raiseIf (taskId = "") (attemptError "task_id_required")
  Program.raiseIf (grantId = "") (attemptError "grant_id_required")
  Program.raiseIf (intentHash = "") (attemptError "intent_hash_required")
  Program.raiseIf (idempotencyKey = "") (attemptError "idempotency_key_required")
  let created ← currentTime now
  let previous ← findByIdempotencyKey idempotencyKey
  let attemptNumber ← Program.ofExcept (nextNumber previous retry)
  let attempt : NewAttempt := {
    attemptId := "attempt_" ++ uuid
    taskId := taskId
    grantId := grantId
    intentHash := intentHash
    idempotencyKey := idempotencyKey
    attemptNumber := attemptNumber
    createdAt := created }
  let inserted ← send (.insertAttempt attempt)
  match inserted with
  | .committed => pure attempt.row
  | .duplicateUnique => .fail (attemptError "idempotency_key_reused")
  | .duplicateKey =>
      .fail ⟨.integrityError, "UNIQUE constraint failed: execution_attempts.attempt_id"⟩

/-- The optional arguments of `transition`. -/
structure TransitionFields where
  error : String := ""
  executorId : String := ""
  executorVersion : String := ""
  executorIdentityEpoch : ℕ := 0
  receiptId : String := ""

/-- The values that `transition` writes over the attempt it read at `moment`. -/
def change (current : ExecutionAttempt) (newState : ExecutionAttemptState)
    (hallowed : newState ∈ current.state.allowed) (fields : TransitionFields)
    (moment : Time) : AttemptChange where
  attemptId := current.attemptId
  expected := current.state
  newState := newState
  allowed := hallowed
  leaseExpiresAt :=
    if newState = .leased then some (moment + minutes 5) else current.leaseExpiresAt
  startedAt :=
    if newState = .running ∧ current.startedAt = none then some moment
    else current.startedAt
  finishedAt :=
    if newState ∈ ExecutionAttemptState.terminal then some moment else current.finishedAt
  executorId := fields.executorId
  executorVersion := fields.executorVersion
  executorIdentityEpoch := fields.executorIdentityEpoch
  receiptId := fields.receiptId
  error := fields.error

def transition (attemptId : String) (newState : ExecutionAttemptState) (now : Option Time)
    (fields : TransitionFields) : Action ExecutionAttempt := do
  let current ← get attemptId
  if hallowed : newState ∈ current.state.allowed then
    let moment ← currentTime now
    let written ← send (.updateAttempt (change current newState hallowed fields moment))
    Program.raiseIf (written = false) (attemptError "attempt_state_conflict")
    get attemptId
  else
    .fail (attemptError
      ("invalid_transition:" ++ current.state.value ++ "->" ++ newState.value))

/-- `get` on each id. -/
def getEach : List String → Action (List ExecutionAttempt)
  | [] => pure []
  | attemptId :: rest => do
      let attempt ← get attemptId
      let attempts ← getEach rest
      pure (attempt :: attempts)

def findStaleRunning (now : Option Time) (limit : ℕ) : Action (List ExecutionAttempt) := do
  Program.raiseIf (limit = 0) (attemptError "limit_must_be_positive")
  let point ← currentTime now
  let attemptIds ← send (.selectStaleRunning point limit)
  getEach attemptIds

/-- The loop of `expire_leases`, which skips an attempt whose transition fails. -/
def expireEach (point : Time) : List String → Action (List ExecutionAttempt)
  | [] => pure []
  | attemptId :: rest => do
      let expired ← (do
        let attempt ← transition attemptId .timedOut (some point) {}
        pure [attempt] : Action (List ExecutionAttempt)).tryCatch fun error =>
          if error.cls = .executionAttemptError then pure [] else .fail error
      let others ← expireEach point rest
      pure (expired ++ others)

def expireLeases (now : Option Time) : Action (List ExecutionAttempt) := do
  let point ← currentTime now
  let attemptIds ← send (.selectExpiredLeases point)
  expireEach point attemptIds

end AegisForge.Shared.ExecutionAttemptStore
