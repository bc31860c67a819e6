import AegisForge.Core.Table
import AegisForge.Shared.CapabilityGrant

/-!
# Rows of the execution database

The rows of each table, the states that their status columns hold, and the
changes that the guarded `UPDATE` statements make.  A change carries the proof
that its state transition is one the source allows.
-/

namespace AegisForge.Shared

open AegisForge.Core

structure AuthorityRegistryRow where
  agentId : String
  policyVersion : String
  authorityEpoch : ℕ
  deriving DecidableEq, Repr

namespace AuthorityRegistryRow

/-- `SET authority_epoch = authority_epoch + 1`. -/
def nextEpoch (row : AuthorityRegistryRow) : AuthorityRegistryRow :=
  { row with authorityEpoch := row.authorityEpoch + 1 }

/-- `SET policy_version = ?, authority_epoch = authority_epoch + 1`. -/
def rotate (policyVersion : String) (row : AuthorityRegistryRow) : AuthorityRegistryRow :=
  { row with policyVersion := policyVersion, authorityEpoch := row.authorityEpoch + 1 }

theorem nextEpoch_agentId (row : AuthorityRegistryRow) :
    row.nextEpoch.agentId = row.agentId := rfl

theorem rotate_agentId (policyVersion : String) (row : AuthorityRegistryRow) :
    (row.rotate policyVersion).agentId = row.agentId := rfl

end AuthorityRegistryRow

/-- The excluded values of an upsert over an existing row. -/
def AuthorityStateRecord.replace (record row : AuthorityStateRecord) :
    AuthorityStateRecord :=
  { record with agentId := row.agentId }

theorem AuthorityStateRecord.replace_agentId (record row : AuthorityStateRecord) :
    (record.replace row).agentId = row.agentId := rfl

inductive GrantStatus
  | active
  | consumed
  | revoked
  deriving DecidableEq, Repr

structure GrantRow where
  payload : SignedCapabilityGrant
  status : GrantStatus
  deriving DecidableEq

def GrantRow.grantId (row : GrantRow) : String := row.payload.grant.grantId

def GrantRow.nonce (row : GrantRow) : String := row.payload.grant.nonce

/-- `SET status = ? ... AND status = 'ACTIVE'`. -/
def GrantRow.finish (status : GrantStatus) (row : GrantRow) : GrantRow :=
  if row.status = .active then { row with status := status } else row

theorem GrantRow.finish_payload (status : GrantStatus) (row : GrantRow) :
    (row.finish status).payload = row.payload := by
  rw [finish]
  split <;> rfl

theorem GrantRow.finish_grantId (status : GrantStatus) (row : GrantRow) :
    (row.finish status).grantId = row.grantId := by
  rw [grantId, grantId, finish_payload]

theorem GrantRow.finish_nonce (status : GrantStatus) (row : GrantRow) :
    (row.finish status).nonce = row.nonce := by
  rw [nonce, nonce, finish_payload]

structure ConsumptionRow where
  nonce : String
  grantId : String
  taskId : String
  consumedAt : Time
  receiptId : String
  deriving DecidableEq, Repr

/-! ## Execution attempts -/

inductive ExecutionAttemptState
  | authorized
  | leased
  | running
  | succeeded
  | recovered
  | failed
  | timedOut
  | aborted
  deriving DecidableEq, Repr

namespace ExecutionAttemptState

/-- `ExecutionAttemptState.value`. -/
def value : ExecutionAttemptState → String
  | authorized => "AUTHORIZED"
  | leased => "LEASED"
  | running => "RUNNING"
  | succeeded => "SUCCEEDED"
  | recovered => "RECOVERED"
  | failed => "FAILED"
  | timedOut => "TIMED_OUT"
  | aborted => "ABORTED"

/-- `_TERMINAL`. -/
def terminal : List ExecutionAttemptState :=
  [succeeded, recovered, failed, timedOut, aborted]

/-- `_ALLOWED`. -/
def allowed : ExecutionAttemptState → List ExecutionAttemptState
  | authorized => [leased, aborted]
  | leased => [running, timedOut, aborted]
  | running => [succeeded, recovered, failed, timedOut, aborted]
  | _ => []

theorem allowed_of_terminal {state : ExecutionAttemptState} (hterminal : state ∈ terminal) :
    state.allowed = [] := by
  revert state
  decide

end ExecutionAttemptState

structure ExecutionAttempt where
  attemptId : String
  taskId : String
  grantId : String
  intentHash : String
  idempotencyKey : String
  attemptNumber : ℕ
  state : ExecutionAttemptState
  createdAt : Time
  leaseExpiresAt : Option Time := none
  startedAt : Option Time := none
  finishedAt : Option Time := none
  executorId : String := ""
  executorVersion : String := ""
  executorIdentityEpoch : ℕ := 0
  receiptId : String := ""
  error : String := ""
  deriving DecidableEq, Repr

/-- The unique index on `(idempotency_key, attempt_number)`. -/
def ExecutionAttempt.keyNumber (attempt : ExecutionAttempt) : String × ℕ :=
  (attempt.idempotencyKey, attempt.attemptNumber)

/-- The values of an `INSERT` of an attempt, whose state is `AUTHORIZED`. -/
structure NewAttempt where
  attemptId : String
  taskId : String
  grantId : String
  intentHash : String
  idempotencyKey : String
  attemptNumber : ℕ
  createdAt : Time
  deriving DecidableEq, Repr

def NewAttempt.row (attempt : NewAttempt) : ExecutionAttempt where
  attemptId := attempt.attemptId
  taskId := attempt.taskId
  grantId := attempt.grantId
  intentHash := attempt.intentHash
  idempotencyKey := attempt.idempotencyKey
  attemptNumber := attempt.attemptNumber
  state := .authorized
  createdAt := attempt.createdAt

/-- The values of the `UPDATE` of `transition`, with the state it expects. -/
structure AttemptChange where
  attemptId : String
  expected : ExecutionAttemptState
  newState : ExecutionAttemptState
  allowed : newState ∈ expected.allowed
  leaseExpiresAt : Option Time
  startedAt : Option Time
  finishedAt : Option Time
  executorId : String
  executorVersion : String
  executorIdentityEpoch : ℕ
  receiptId : String
  error : String
  deriving DecidableEq

/-- `COALESCE(NULLIF(?, ''), column)`. -/
def coalesce (value column : String) : String := if value = "" then column else value

theorem coalesce_of_ne_empty {value : String} (hvalue : value ≠ "") (column : String) :
    coalesce value column = value :=
  if_neg hvalue

namespace AttemptChange

def values (change : AttemptChange) (row : ExecutionAttempt) : ExecutionAttempt :=
  { row with
    state := change.newState
    leaseExpiresAt := change.leaseExpiresAt
    startedAt := change.startedAt
    finishedAt := change.finishedAt
    executorId := coalesce change.executorId row.executorId
    executorVersion := coalesce change.executorVersion row.executorVersion
    executorIdentityEpoch :=
      if 0 < change.executorIdentityEpoch then change.executorIdentityEpoch
      else row.executorIdentityEpoch
    receiptId := coalesce change.receiptId row.receiptId
    error := coalesce change.error row.error }

/-- The row after the `UPDATE`, which is guarded by the expected state. -/
def apply (change : AttemptChange) (row : ExecutionAttempt) : ExecutionAttempt :=
  if row.state = change.expected then change.values row else row

theorem apply_attemptId (change : AttemptChange) (row : ExecutionAttempt) :
    (change.apply row).attemptId = row.attemptId := by
  rw [apply]
  split <;> rfl

theorem apply_keyNumber (change : AttemptChange) (row : ExecutionAttempt) :
    (change.apply row).keyNumber = row.keyNumber := by
  rw [apply]
  split <;> rfl

/-- A terminal attempt never changes again. -/
theorem apply_of_terminal (change : AttemptChange) {row : ExecutionAttempt}
    (hterminal : row.state ∈ ExecutionAttemptState.terminal) : change.apply row = row := by
  rw [apply, if_neg]
  intro hstate
  have hallowed := change.allowed
  rw [← hstate, ExecutionAttemptState.allowed_of_terminal hterminal] at hallowed
  cases hallowed

end AttemptChange

/-! ## Recovery -/

inductive RecoveryDecision
  | unknown
  | sideEffectConfirmed
  | safeToRetry
  | quarantined
  deriving DecidableEq, Repr

/-- `RecoveryDecision.value`. -/
def RecoveryDecision.value : RecoveryDecision → String
  | unknown => "UNKNOWN"
  | sideEffectConfirmed => "SIDE_EFFECT_CONFIRMED"
  | safeToRetry => "SAFE_TO_RETRY"
  | quarantined => "QUARANTINED"

structure RecoveryReview where
  recoveryId : String
  attemptId : String
  taskId : String
  idempotencyKey : String
  decision : RecoveryDecision
  verifierId : String := ""
  outcomeId : String := ""
  reason : String := ""
  reviewedAt : Time
  deriving DecidableEq, Repr

/-- The `UPDATE` of `resolve`, guarded by the `UNKNOWN` decision. -/
structure Resolution where
  recoveryId : String
  decision : RecoveryDecision
  verifierId : String
  outcomeId : String
  reason : String
  reviewedAt : Time
  deriving DecidableEq, Repr

namespace Resolution

def apply (resolution : Resolution) (review : RecoveryReview) : RecoveryReview :=
  if review.decision = .unknown then
    { review with
      decision := resolution.decision
      verifierId := resolution.verifierId
      outcomeId := resolution.outcomeId
      reason := resolution.reason
      reviewedAt := resolution.reviewedAt }
  else review

theorem apply_recoveryId (resolution : Resolution) (review : RecoveryReview) :
    (resolution.apply review).recoveryId = review.recoveryId := by
  rw [apply]
  split <;> rfl

theorem apply_attemptId (resolution : Resolution) (review : RecoveryReview) :
    (resolution.apply review).attemptId = review.attemptId := by
  rw [apply]
  split <;> rfl

end Resolution

inductive RetryState
  | claimed
  | authorized
  | created
  deriving DecidableEq, Repr

/-- `allowed_transitions`. -/
def RetryState.allowed : RetryState → List RetryState
  | claimed => [authorized]
  | authorized => [created]
  | created => []

structure RetryOperation where
  recoveryId : String
  attemptId : String
  operationKey : String
  state : RetryState
  retryGrantId : String
  retryAttemptId : Option String := none
  createdAt : Time
  updatedAt : Time
  claimToken : Option String := none
  leaseExpiresAt : Option Stamp := none
  deriving DecidableEq, Repr

/-- The values that `claim_retry` brings to its transaction. -/
structure RetryClaim where
  recoveryId : String
  attemptId : String
  currentTime : Time
  leaseExpiresAt : Time
  claimToken : String
  deriving DecidableEq, Repr

namespace RetryClaim

def operationKey (claim : RetryClaim) : String := "retry_" ++ claim.recoveryId

def grantId (claim : RetryClaim) : String := "retry-grant_" ++ claim.recoveryId

/-- The row that a first claim inserts. -/
def row (claim : RetryClaim) : RetryOperation where
  recoveryId := claim.recoveryId
  attemptId := claim.attemptId
  operationKey := claim.operationKey
  state := .claimed
  retryGrantId := claim.grantId
  createdAt := claim.currentTime
  updatedAt := claim.currentTime
  claimToken := some claim.claimToken
  leaseExpiresAt := some (.at claim.leaseExpiresAt)

/-- Whether the lease is missing, unreadable or over. -/
def isStale (claim : RetryClaim) : Option Stamp → Bool
  | none => true
  | some (.at expires) => decide (expires ≤ claim.currentTime)
  | some (.unreadable _) => true

/-- Whether the claim takes over the operation.  The `UPDATE` compares the
lease for equality, which a missing lease never passes. -/
def takesOver (claim : RetryClaim) (operation : RetryOperation) : Bool :=
  decide (operation.state = .claimed) && claim.isStale operation.leaseExpiresAt &&
    operation.leaseExpiresAt.isSome

def apply (claim : RetryClaim) (operation : RetryOperation) : RetryOperation :=
  if claim.takesOver operation then
    { operation with
      claimToken := some claim.claimToken
      leaseExpiresAt := some (.at claim.leaseExpiresAt)
      updatedAt := claim.currentTime }
  else operation

theorem apply_recoveryId (claim : RetryClaim) (operation : RetryOperation) :
    (claim.apply operation).recoveryId = operation.recoveryId := by
  rw [apply]
  split <;> rfl

theorem apply_attemptId (claim : RetryClaim) (operation : RetryOperation) :
    (claim.apply operation).attemptId = operation.attemptId := by
  rw [apply]
  split <;> rfl

end RetryClaim

/-- The values of the `UPDATE` of `update_retry_operation`. -/
structure RetryChange where
  recoveryId : String
  expected : RetryState
  newState : RetryState
  allowed : newState ∈ expected.allowed
  retryAttemptId : Option String
  updatedAt : Time
  deriving DecidableEq

namespace RetryChange

def values (change : RetryChange) (operation : RetryOperation) : RetryOperation :=
  { operation with
    state := change.newState
    retryAttemptId := change.retryAttemptId <|> operation.retryAttemptId
    updatedAt := change.updatedAt
    claimToken := none
    leaseExpiresAt := none }

def apply (change : RetryChange) (operation : RetryOperation) : RetryOperation :=
  if operation.state = change.expected then change.values operation else operation

theorem apply_recoveryId (change : RetryChange) (operation : RetryOperation) :
    (change.apply operation).recoveryId = operation.recoveryId := by
  rw [apply]
  split <;> rfl

theorem apply_attemptId (change : RetryChange) (operation : RetryOperation) :
    (change.apply operation).attemptId = operation.attemptId := by
  rw [apply]
  split <;> rfl

end RetryChange

/-! ## Recovery evidence -/

/-- A value of an evidence payload. -/
inductive EvidenceValue
  | null
  | text (value : String)
  | instant (value : Time)
  deriving DecidableEq, Repr

/-- What an event's hash commits to. -/
structure EvidenceBody where
  recoveryId : String
  attemptId : String
  eventType : String
  payload : List (String × EvidenceValue)
  occurredAt : Time
  prevHash : String
  deriving DecidableEq, Repr

structure EvidenceEvent where
  body : EvidenceBody
  eventHash : String
  deriving DecidableEq, Repr

end AegisForge.Shared
