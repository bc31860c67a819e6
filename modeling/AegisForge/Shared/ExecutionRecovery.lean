import AegisForge.Shared.Database

/-!
# The execution recovery store

Reviews of ambiguous attempts and the operation that turns a safe review into
one retry.  A claim of an operation is a lease with a token; every change of
its state is an update guarded by the state that was read before.
-/

namespace AegisForge.Shared.ExecutionRecoveryStore

open AegisForge.Core AegisForge.Concurrency

def recoveryError (message : String) : Raised := ⟨.executionRecoveryError, message⟩

/-- `CLAIM_LEASE_SECONDS`. -/
def claimLeaseSeconds : ℕ := 60

def get (recoveryId : String) : Action RecoveryReview := do
  match ← send (.selectReview recoveryId) with
  | none => .fail (recoveryError "recovery_not_found")
  | some review => pure review

def getByAttempt (attemptId : String) : Action (Option RecoveryReview) := do
  match ← send (.selectReviewIdByAttempt attemptId) with
  | none => pure none
  | some recoveryId => do
      let review ← get recoveryId
      pure (some review)

/-- `open`, where `uuid` is what `uuid.uuid4().hex` draws. -/
def openReview (attempt : ExecutionAttempt) (now : Option Time) (uuid : String) :
    Action RecoveryReview := do
  Program.raiseIf (attempt.state ≠ .running)
    (recoveryError "recovery_requires_running_attempt")
  Program.raiseIf (attempt.receiptId ≠ "")
    (recoveryError "recovery_receipt_already_recorded")
  match ← getByAttempt attempt.attemptId with
  | some existing => pure existing
  | none =>
      let reviewedAt ← currentTime now
      let review : RecoveryReview := {
        recoveryId := "recovery_" ++ uuid
        attemptId := attempt.attemptId
        taskId := attempt.taskId
        idempotencyKey := attempt.idempotencyKey
        decision := .unknown
        reviewedAt := reviewedAt }
      let inserted : Bool ← send (.insertReview review)
      if inserted then pure review
      else
        match ← getByAttempt attempt.attemptId with
        | some existing => pure existing
        | none => .fail (recoveryError "recovery_review_conflict")

def resolve (recoveryId : String) (decision : RecoveryDecision)
    (verifierId outcomeId reason : String) (now : Option Time) :
    Action RecoveryReview := do
  Program.raiseIf (decision = .safeToRetry ∧ isBlank verifierId)
    (recoveryError "retry_verifier_required")
  Program.raiseIf (decision = .sideEffectConfirmed ∧ isBlank verifierId)
    (recoveryError "outcome_verifier_required")
  Program.raiseIf
    ((decision = .sideEffectConfirmed ∨ decision = .safeToRetry) ∧ isBlank outcomeId)
    (recoveryError "outcome_id_required")
  let current ← get recoveryId
  Program.raiseIf (current.decision ≠ .unknown)
    (recoveryError "recovery_already_resolved")
  let reviewedAt ← currentTime now
  let written : Bool ← send (.resolveReview {
    recoveryId := recoveryId
    decision := decision
    verifierId := verifierId
    outcomeId := outcomeId
    reason := reason
    reviewedAt := reviewedAt })
  Program.raiseIf (written = false) (recoveryError "recovery_state_conflict")
  get recoveryId

/-- What an independent verifier answers about an ambiguous attempt. -/
structure Verification where
  status : RecoveryDecision
  verifier : String
  outcomeId : String
  deriving DecidableEq, Repr

def resolveVerified (recoveryId : String) (verification : Verification)
    (now : Option Time) : Action RecoveryReview := do
  Program.raiseIf (verification.status = .unknown)
    (recoveryError "invalid_recovery_verification_status")
  Program.raiseIf (strip verification.verifier = "")
    (recoveryError "recovery_verifier_required")
  Program.raiseIf (strip verification.outcomeId = "")
    (recoveryError "recovery_outcome_id_required")
  resolve recoveryId verification.status (strip verification.verifier)
    (strip verification.outcomeId) "independent_outcome_verification" now

/-- `claim_retry`: the operation, and whether this claim acquired it. -/
def claimRetry (review : RecoveryReview) (now : Option Time) (uuid : String) :
    Action (RetryOperation × Bool) := do
  Program.raiseIf (review.decision ≠ .safeToRetry) (recoveryError "retry_not_safe")
  let current ← currentTime now
  let claimed : Claimed ← send (.claimOperation {
    recoveryId := review.recoveryId
    attemptId := review.attemptId
    currentTime := current
    leaseExpiresAt := current + seconds claimLeaseSeconds
    claimToken := "claim_" ++ uuid })
  Program.raiseIf (claimed = .integrityError)
    ⟨.integrityError, "UNIQUE constraint failed: execution_recovery_operations.attempt_id"⟩
  match ← send (.selectOperation review.recoveryId) with
  | none => .fail (recoveryError "retry_claim_conflict")
  | some operation => pure (operation, decide (claimed = .acquired))

def getRetryOperation (recoveryId : String) : Action (Option RetryOperation) :=
  send (.selectOperation recoveryId)

/-- The check of the caller's token and of the lease, on the row that was read. -/
def checkClaim (current : RetryOperation) (now : Option Time)
    (claimToken : Option String) : Action Unit := do
  Program.raiseIf (isBlank (claimToken.getD "") ∨ claimToken ≠ current.claimToken)
    (recoveryError "retry_claim_token_conflict")
  match current.leaseExpiresAt with
  | none => pure ()
  | some (.at expires) => do
      let point ← currentTime now
      Program.raiseIf (expires ≤ point) (recoveryError "retry_claim_expired")
  | some (.unreadable text) =>
      Program.raiseIf (text ≠ "") (recoveryError "retry_claim_expired")

/-- Another retry attempt than the wanted one is already recorded. -/
def namesOther (current : RetryOperation) (retryAttemptId : Option String) : Bool :=
  retryAttemptId.any fun wanted =>
    wanted ≠ "" && current.retryAttemptId.any fun recorded => recorded ≠ wanted

/-- `update_retry_operation`.  The token is compared with the row that was
read; the `UPDATE` itself is guarded by the state alone. -/
def updateRetryOperation (recoveryId : String) (state : RetryState)
    (retryAttemptId : Option String) (now : Option Time) (claimToken : Option String) :
    Action (Option RetryOperation) := do
  match ← send (.selectOperation recoveryId) with
  | none => .fail (recoveryError "retry_operation_not_found")
  | some current =>
      if state = current.state then do
        Program.raiseIf (state = .created ∧ namesOther current retryAttemptId)
          (recoveryError "retry_operation_state_conflict")
        pure (some current)
      else if hallowed : state ∈ current.state.allowed then do
        Program.raiseIf (state = .created ∧ isBlank (retryAttemptId.getD ""))
          (recoveryError "retry_attempt_id_required")
        if current.state = .claimed then checkClaim current now claimToken else pure ()
        let updatedAt ← currentTime now
        let written : Bool ← send (.updateOperation {
          recoveryId := recoveryId
          expected := current.state
          newState := state
          allowed := hallowed
          retryAttemptId := retryAttemptId
          updatedAt := updatedAt })
        Program.raiseIf (written = false)
          (recoveryError "retry_operation_state_conflict")
        getRetryOperation recoveryId
      else .fail (recoveryError "retry_operation_invalid_transition")

end AegisForge.Shared.ExecutionRecoveryStore
