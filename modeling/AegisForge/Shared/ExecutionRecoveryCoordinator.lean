import AegisForge.Shared.ExecutionGate
import AegisForge.Shared.ExecutionRecovery
import AegisForge.Shared.ExecutionRetryAuthorizer
import AegisForge.Shared.RecoveryEvidence

/-!
# The execution recovery coordinator

`retryIfSafe` is a saga over four stores: review the attempt, claim the retry
operation, authorize a grant, close the original attempt, create the retry.
Each step commits on its own, and a later call resumes from what it finds.
-/

namespace AegisForge.Shared

open AegisForge.Core AegisForge.Concurrency

/-- What the injected `reauthorize` does. -/
inductive Reauthorization
  | raised (error : Raised)
  | notAGrant
  | granted (signed : SignedCapabilityGrant)

/-- The arguments of `retry_if_safe` besides the attempt and the time: what the
verifier of the contract answers, and what `uuid` and `secrets` draw. -/
structure RetryRequest where
  intent : ActionIntent
  verification : Except Raised ExecutionRecoveryStore.Verification
  reauthorize : Option (ExecutionAttempt → Reauthorization) := none
  signedActionIntent : Option SignedActionIntent := none
  evidenceIds : List String := []
  recoveryUuid : String
  claimUuid : String
  attemptUuid : String
  grantToken : String := ""

structure ExecutionRecoveryCoordinator where
  recoveryEvidence : RecoveryEvidenceChain
  executionGate : Option ExecutionGate := none
  retryAuthorizer : Option ExecutionRetryAuthorizer := none

namespace ExecutionRecoveryCoordinator

def coordinatorError (message : String) : Raised :=
  ⟨.executionRecoveryCoordinatorError, message⟩

/-- The payload of `RECOVERY_OPENED`. -/
def openedPayload (attempt : ExecutionAttempt) : List (String × EvidenceValue) :=
  [("state", .text attempt.state.value),
    ("lease_expires_at",
      match attempt.leaseExpiresAt with
      | none => .null
      | some expires => .instant expires)]

/-- The payload of `VERIFICATION_DECISION`. -/
def decisionPayload (review : RecoveryReview) : List (String × EvidenceValue) :=
  [("decision", .text review.decision.value), ("verifier_id", .text review.verifierId),
    ("outcome_id", .text review.outcomeId)]

def review (coordinator : ExecutionRecoveryCoordinator) (attemptId : String)
    (request : RetryRequest) : Action RecoveryReview := do
  let attempt ← ExecutionAttemptStore.get attemptId
  let opened ← ExecutionRecoveryStore.openReview attempt none request.recoveryUuid
  if opened.decision ≠ .unknown then pure opened
  else do
    let _ ← coordinator.recoveryEvidence.append opened.recoveryId attempt.attemptId
      "RECOVERY_OPENED" (openedPayload attempt) none
    let verification ← Program.ofExcept request.verification
    let resolved ←
      ExecutionRecoveryStore.resolveVerified opened.recoveryId verification none
    let _ ← coordinator.recoveryEvidence.append opened.recoveryId attempt.attemptId
      "VERIFICATION_DECISION" (decisionPayload resolved) none
    pure resolved

/-- The grant that the authorizer issues or the injected callable answers. -/
def issueRetry (coordinator : ExecutionRecoveryCoordinator) (attempt : ExecutionAttempt)
    (request : RetryRequest) (now : Option Time) (retryGrantId : String) :
    Action SignedCapabilityGrant :=
  match coordinator.retryAuthorizer with
  | some authorizer =>
      match request.signedActionIntent with
      | none => .fail (coordinatorError "signed_action_intent_required")
      | some signedActionIntent =>
          wrap (fun _ => true) (fun _ => coordinatorError "retry_reauthorization_failed")
            (authorizer.authorize attempt request.intent signedActionIntent
              request.evidenceIds 300 none now (some retryGrantId)
              (if retryGrantId = "" then none else some ("retry-nonce_" ++ retryGrantId))
              request.grantToken)
  | none =>
      match request.reauthorize with
      | none => .fail (coordinatorError "reauthorizer_required")
      | some reauthorize =>
          match reauthorize attempt with
          | .raised _ => .fail (coordinatorError "retry_reauthorization_failed")
          | .notAGrant =>
              .fail (coordinatorError "reauthorizer_must_return_signed_grant")
          | .granted signed => pure signed

/-- `_reauthorize_retry`. -/
def reauthorizeRetry (coordinator : ExecutionRecoveryCoordinator)
    (attempt : ExecutionAttempt) (request : RetryRequest) (now : Option Time)
    (retryGrantId : String) : Action SignedCapabilityGrant := do
  let signedGrant ← coordinator.issueRetry attempt request now retryGrantId
  Program.raiseIf (signedGrant.grant.grantId = attempt.grantId)
    (coordinatorError "retry_grant_must_be_new")
  Program.raiseIf (signedGrant.grant.taskId ≠ attempt.taskId)
    (coordinatorError "retry_grant_task_mismatch")
  Program.raiseIf (signedGrant.grant.intentHash ≠ attempt.intentHash)
    (coordinatorError "retry_grant_intent_mismatch")
  match coordinator.executionGate with
  | none => .fail (coordinatorError "execution_gate_required")
  | some gate => do
      let _ ← wrap (· = .executionGateError)
        (fun _ => coordinatorError "retry_reauthorization_failed")
        (gate.authorize signedGrant request.intent request.evidenceIds now)
      pure signedGrant

/-- Close a running attempt whose outcome is decided, and record the decision. -/
def closeDecided (coordinator : ExecutionRecoveryCoordinator) (review : RecoveryReview)
    (attemptId : String) (now : Option Time) (state : ExecutionAttemptState)
    (error eventType : String) : Action (Option ExecutionAttempt) := do
  let current ← ExecutionAttemptStore.get attemptId
  if current.state = .running then do
    let _ ← wrap (· = .executionAttemptError)
      (fun _ => coordinatorError "recovery_terminalization_failed")
      (ExecutionAttemptStore.transition attemptId state now { error := error })
    pure ()
  else pure ()
  let _ ← coordinator.recoveryEvidence.append review.recoveryId attemptId eventType
    [("outcome_id", .text review.outcomeId), ("verifier_id", .text review.verifierId)] now
  pure none

/-- A claim that another caller holds is resumed if its grant is stored; answers
the state of the operation from then on. -/
def resumeClaim (coordinator : ExecutionRecoveryCoordinator) (review : RecoveryReview)
    (operation : RetryOperation) (acquired : Bool) (now : Option Time) :
    Action RetryState :=
  if acquired = false ∧ operation.state = .claimed then
    match coordinator.executionGate with
    | none => .fail (coordinatorError "retry_in_progress")
    | some gate => do
        match ← CapabilityGrantStore.getSigned gate.crypto operation.retryGrantId with
        | none => .fail (coordinatorError "retry_in_progress")
        | some _ => do
            let _ ← ExecutionRecoveryStore.updateRetryOperation review.recoveryId
              .authorized none now operation.claimToken
            pure .authorized
  else pure operation.state

/-- The grant of the retry: the stored one of an authorized operation, else a
new one, after which the operation is `AUTHORIZED`. -/
def retryGrant (coordinator : ExecutionRecoveryCoordinator) (review : RecoveryReview)
    (attempt : ExecutionAttempt) (attemptId : String) (request : RetryRequest)
    (now : Option Time) (operation : RetryOperation) (state : RetryState) :
    Action SignedCapabilityGrant :=
  if state = .authorized then
    match coordinator.executionGate with
    | none => .fail (coordinatorError "retry_authorization_record_required")
    | some gate => do
        match ← CapabilityGrantStore.getSigned gate.crypto operation.retryGrantId with
        | none => .fail (coordinatorError "retry_authorization_record_missing")
        | some signed => pure signed
  else do
    let signed ←
      coordinator.reauthorizeRetry attempt request now operation.retryGrantId
    let _ ← ExecutionRecoveryStore.updateRetryOperation review.recoveryId .authorized
      none now operation.claimToken
    let _ ← coordinator.recoveryEvidence.append review.recoveryId attemptId
      "RETRY_AUTHORIZED"
      [("grant_id", .text signed.grant.grantId), ("verifier_id", .text review.verifierId),
        ("outcome_id", .text review.outcomeId)] now
    pure signed

/-- The original attempt, aborted if it is running and refused if it is neither
running nor aborted. -/
def closeOriginal (coordinator : ExecutionRecoveryCoordinator) (review : RecoveryReview)
    (attemptId : String) (now : Option Time) : Action ExecutionAttempt := do
  let current ← ExecutionAttemptStore.get attemptId
  if current.state = .running then do
    wrap (· = .executionAttemptError)
      (fun _ => coordinatorError "original_attempt_close_failed") do
        let _ ← ExecutionAttemptStore.transition attemptId .aborted now
          { error := "recovery_verified_safe_to_retry" }
        let _ ← coordinator.recoveryEvidence.append review.recoveryId attemptId
          "ORIGINAL_ABORTED" [("reason", .text "recovery_verified_safe_to_retry")] now
        pure ()
    pure current
  else if current.state ≠ .aborted then
    .fail (coordinatorError "retry_requires_running_or_aborted_attempt")
  else pure current

def recordCreated (coordinator : ExecutionRecoveryCoordinator) (review : RecoveryReview)
    (attemptId : String) (grant : SignedCapabilityGrant) (retry : ExecutionAttempt)
    (now : Option Time) : Action Unit := do
  let _ ← ExecutionRecoveryStore.updateRetryOperation review.recoveryId .created
    (some retry.attemptId) now none
  let _ ← coordinator.recoveryEvidence.append review.recoveryId attemptId "RETRY_CREATED"
    [("retry_attempt_id", .text retry.attemptId), ("grant_id", .text grant.grant.grantId)]
    now
  pure ()

/-- The retry attempt of the grant: the one that exists, or a new one. -/
def createRetry (coordinator : ExecutionRecoveryCoordinator) (review : RecoveryReview)
    (attempt : ExecutionAttempt) (attemptId : String) (request : RetryRequest)
    (now : Option Time) (grant : SignedCapabilityGrant) : Action ExecutionAttempt := do
  match ← ExecutionAttemptStore.findByGrantId grant.grant.grantId with
  | some existing => do
      coordinator.recordCreated review attemptId grant existing now
      pure existing
  | none =>
      wrap (· = .executionAttemptError)
        (fun _ => coordinatorError "retry_attempt_create_failed") do
          let next ← ExecutionAttemptStore.create attempt.taskId grant.grant.grantId
            attempt.intentHash attempt.idempotencyKey now true request.attemptUuid
          coordinator.recordCreated review attemptId grant next now
          pure next

/-- `retry_if_safe` once the review says `SAFE_TO_RETRY`. -/
def retrySafe (coordinator : ExecutionRecoveryCoordinator) (review : RecoveryReview)
    (attemptId : String) (request : RetryRequest) (now : Option Time) :
    Action ExecutionAttempt := do
  let current ← ExecutionAttemptStore.get attemptId
  let (operation, acquired) ←
    ExecutionRecoveryStore.claimRetry review now request.claimUuid
  match operation.retryAttemptId.filter (· ≠ ""), operation.state with
  | some retryAttemptId, .created => ExecutionAttemptStore.get retryAttemptId
  | some retryAttemptId, .authorized => ExecutionAttemptStore.get retryAttemptId
  | _, _ => do
      let state ← coordinator.resumeClaim review operation acquired now
      let grant ←
        coordinator.retryGrant review current attemptId request now operation state
      let current ← coordinator.closeOriginal review attemptId now
      coordinator.createRetry review current attemptId request now grant

def retryIfSafe (coordinator : ExecutionRecoveryCoordinator) (attemptId : String)
    (request : RetryRequest) (now : Option Time) : Action (Option ExecutionAttempt) := do
  let _ ← ExecutionAttemptStore.get attemptId
  let known ← ExecutionRecoveryStore.getByAttempt attemptId
  let review ←
    match known with
    | none => coordinator.review attemptId request
    | some review =>
        if review.decision = .unknown then coordinator.review attemptId request
        else pure review
  match review.decision with
  | .sideEffectConfirmed =>
      coordinator.closeDecided review attemptId now .recovered
        "recovery_verified_side_effect_confirmed" "SIDE_EFFECT_CONFIRMED"
  | .quarantined =>
      coordinator.closeDecided review attemptId now .aborted "recovery_quarantined"
        "QUARANTINED"
  | .unknown => pure none
  | .safeToRetry => do
      let retry ← coordinator.retrySafe review attemptId request now
      pure (some retry)

/-- What `retry_if_safe` does once there is a review. -/
def followReview (coordinator : ExecutionRecoveryCoordinator) (attemptId : String)
    (request : RetryRequest) (now : Option Time) (review : RecoveryReview) :
    Action (Option ExecutionAttempt) :=
  match review.decision with
  | .sideEffectConfirmed =>
      coordinator.closeDecided review attemptId now .recovered
        "recovery_verified_side_effect_confirmed" "SIDE_EFFECT_CONFIRMED"
  | .quarantined =>
      coordinator.closeDecided review attemptId now .aborted "recovery_quarantined"
        "QUARANTINED"
  | .unknown => pure none
  | .safeToRetry => do
      let retry ← coordinator.retrySafe review attemptId request now
      pure (some retry)

/-! ## Recovery of stale attempts -/

/-- What the context factory supplies for a candidate; its own time replaces
the one of the whole recovery. -/
structure RecoveryContext where
  request : RetryRequest
  now : Option (Option Time) := none

/-- `retry_if_safe` on a candidate; one that is no longer ambiguous when its
recovery is refused is skipped. -/
def recoverCandidate (coordinator : ExecutionRecoveryCoordinator)
    (attempt : ExecutionAttempt) (context : RecoveryContext) (now : Option Time) :
    Action (Option ExecutionAttempt) :=
  (coordinator.retryIfSafe attempt.attemptId context.request
      (context.now.getD now)).tryCatch fun error =>
    if error.cls = .executionRecoveryError then do
      let current ← ExecutionAttemptStore.get attempt.attemptId
      if current.state ≠ .running ∨ current.receiptId ≠ "" then pure none
      else .fail error
    else .fail error

def recoverEach (coordinator : ExecutionRecoveryCoordinator)
    (contextFactory : ExecutionAttempt → Except Raised RecoveryContext)
    (now : Option Time) :
    List ExecutionAttempt → Action (List (String × Option ExecutionAttempt))
  | [] => pure []
  | attempt :: rest => do
      let context ← Program.ofExcept (contextFactory attempt)
      let result ← coordinator.recoverCandidate attempt context now
      let results ← coordinator.recoverEach contextFactory now rest
      pure ((attempt.attemptId, result) :: results)

def recoverStaleRunning (coordinator : ExecutionRecoveryCoordinator)
    (contextFactory : ExecutionAttempt → Except Raised RecoveryContext)
    (now : Option Time) (limit : ℕ) :
    Action (List (String × Option ExecutionAttempt)) := do
  let candidates ← ExecutionAttemptStore.findStaleRunning now limit
  coordinator.recoverEach contextFactory now candidates

end ExecutionRecoveryCoordinator

end AegisForge.Shared
