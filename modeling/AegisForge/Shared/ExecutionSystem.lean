import AegisForge.Shared.AuthorityUpdates
import AegisForge.Shared.ExecutionRecoveryCoordinator

/-!
# The execution system

Every call that the repository offers on the execution database, and the pools
in which any number of them run.  Only `execute` starts an executor, and only
`execute` and the recovery coordinator create attempts.
-/

namespace AegisForge.Shared

open AegisForge.Core AegisForge.Concurrency

inductive SystemCall
  | execute (gate : ExecutionGate) (execution : Execution)
  | registerGrant (signedGrant : SignedCapabilityGrant)
  | revokeGrant (grantId : String)
  | authority (agentId : String) (call : AuthorityUpdates.AuthorityCall)
  | transition (attemptId : String) (newState : ExecutionAttemptState)
      (now : Option Time) (fields : ExecutionAttemptStore.TransitionFields)
  | expireLeases (now : Option Time)
  | review (coordinator : ExecutionRecoveryCoordinator) (attemptId : String)
      (request : RetryRequest)
  | retryIfSafe (coordinator : ExecutionRecoveryCoordinator) (attemptId : String)
      (request : RetryRequest) (now : Option Time)
  | recoverStaleRunning (coordinator : ExecutionRecoveryCoordinator)
      (contextFactory : ExecutionAttempt →
        Except Raised ExecutionRecoveryCoordinator.RecoveryContext)
      (now : Option Time) (limit : ℕ)
  | claimRetry (review : RecoveryReview) (now : Option Time) (uuid : String)
  | updateRetryOperation (recoveryId : String) (state : RetryState)
      (retryAttemptId : Option String) (now : Option Time) (claimToken : Option String)
  | advanceClock (elapsed : ℕ)

/-- What the calls return. -/
inductive Answer
  | receipt (receipt : ExecutionReceipt)
  | flag (value : Bool)
  | authority (authority : AgentAuthority)
  | attempts (attempts : List ExecutionAttempt)
  | review (review : RecoveryReview)
  | retry (retry : Option ExecutionAttempt)
  | recovered (results : List (String × Option ExecutionAttempt))
  | claim (operation : RetryOperation) (acquired : Bool)
  | operation (operation : Option RetryOperation)
  | nothing

/-- The call with its value in the common type. -/
def answer {Value : Type} (wrapped : Value → Answer) (action : Action Value) :
    Action Answer := do
  let value ← action
  pure (wrapped value)

namespace SystemCall

def body : SystemCall → Action Answer
  | execute gate execution => answer .receipt (gate.execute execution)
  | registerGrant signedGrant => answer .flag (CapabilityGrantStore.register signedGrant)
  | revokeGrant grantId => answer .flag (CapabilityGrantStore.revoke grantId)
  | authority agentId call => answer .authority (AuthorityUpdates.body agentId call)
  | transition attemptId newState now fields =>
      answer (fun attempt => .attempts [attempt])
        (ExecutionAttemptStore.transition attemptId newState now fields)
  | expireLeases now => answer .attempts (ExecutionAttemptStore.expireLeases now)
  | review coordinator attemptId request =>
      answer .review (coordinator.review attemptId request)
  | retryIfSafe coordinator attemptId request now =>
      answer .retry (coordinator.retryIfSafe attemptId request now)
  | recoverStaleRunning coordinator contextFactory now limit =>
      answer .recovered (coordinator.recoverStaleRunning contextFactory now limit)
  | claimRetry reviewed now uuid =>
      answer (fun claimed => .claim claimed.1 claimed.2)
        (ExecutionRecoveryStore.claimRetry reviewed now uuid)
  | updateRetryOperation recoveryId state retryAttemptId now claimToken =>
      answer .operation (ExecutionRecoveryStore.updateRetryOperation recoveryId state
        retryAttemptId now claimToken)
  | advanceClock elapsed => answer (fun _ => .nothing) (send (.advanceClock elapsed))

end SystemCall

abbrev SystemHistory : Type := History Statement World

abbrev SystemPool : Type := Pool SystemCall Statement.Reply World Raised Answer

/-- The pools that any interleaving of any calls reaches from a database. -/
abbrev SystemPool.Reachable (start : World) (pool : SystemPool) : Prop :=
  Pool.Reaches execute SystemCall.body .unrestricted (Pool.idle start) pool

/-- The executor of the grant started. -/
def starts (grantId : String) (event : Event Statement World) : Bool :=
  match event.statement with
  | .startExecutor started => started = grantId
  | _ => false

theorem starts_iff {grantId : String} {event : Event Statement World} :
    starts grantId event = true ↔ event.statement = .startExecutor grantId := by
  rw [starts]
  split
  case h_1 started hstatement => simp [hstatement]
  case h_2 hother =>
    simp only [Bool.false_eq_true, false_iff]
    exact hother grantId

/-! ## The statements of a call -/

/-- Statements that neither run an executor nor create an attempt. -/
def Statement.isOrdinary : Statement → Bool
  | startExecutor _ => false
  | finishExecutor _ => false
  | insertAttempt _ => false
  | _ => true

section Within

variable {allowed : Statement → Prop} {Value : Type}

theorem within_send {statement : Statement} (hallowed : allowed statement) :
    (send statement).Within allowed :=
  Program.within_call hallowed

theorem within_wrap {catches : ExceptionClass → Bool} {wrapped : String → Raised}
    {action : Action Value} (hwithin : action.Within allowed) :
    (wrap catches wrapped action).Within allowed :=
  hwithin.tryCatch fun _ => trivial

theorem within_answer {wrapped : Value → Answer} {action : Action Value}
    (hwithin : action.Within allowed) : (answer wrapped action).Within allowed :=
  hwithin.bind fun _ => trivial

variable (hordinary : ∀ statement : Statement, statement.isOrdinary = true →
  allowed statement)
include hordinary

theorem within_currentTime (now : Option Time) : (currentTime now).Within allowed := by
  cases now with
  | none => exact within_send (hordinary _ rfl)
  | some now => trivial

/-! ### Authority and grants -/

theorem within_load (agentId : String) :
    (AuthorityStateStore.load agentId).Within allowed := by
  apply Program.within_raiseIf.bind
  intro _
  apply (within_send (hordinary _ rfl)).bind
  intro record
  cases record with
  | none => exact Program.within_ofExcept
  | some record => exact (within_send (hordinary _ rfl)).bind fun _ => trivial

theorem within_getAuthority (registry : AgentAuthorityRegistry) (agentId : String) :
    (registry.get agentId).Within allowed := by
  apply Program.within_raiseIf.bind
  intro _
  apply (within_send (hordinary _ rfl)).bind
  intro row
  cases row with
  | none => trivial
  | some row => exact (within_load hordinary agentId).bind fun _ => trivial

theorem within_rewrite (registry : AgentAuthorityRegistry) (agentId : String)
    (operation : AuthorityStateMachine.Operation)
    (advances : AuthorityState → AuthorityTransition → Bool) :
    (registry.rewrite agentId operation advances).Within allowed := by
  have hget := within_getAuthority hordinary registry agentId
  have hload := within_load hordinary agentId
  have hmachine : (registry.machine agentId).Within allowed :=
    hget.bind fun _ => hload.bind fun _ => trivial
  apply hmachine.bind
  intro machine
  apply Program.within_ofExcept.bind
  intro applied
  apply (within_send (hordinary _ rfl)).bind
  intro _
  rw [AgentAuthorityRegistry.settle]
  split
  · exact (within_send (hordinary _ rfl)).bind fun _ => hget.bind fun _ => trivial
  · exact hget.bind fun _ => trivial

theorem within_authorityBody (agentId : String) (call : AuthorityUpdates.AuthorityCall) :
    (AuthorityUpdates.body agentId call).Within allowed := by
  have hauthorityOf : ∀ action : Action (AgentAuthority × AuthorityTransition),
      action.Within allowed → (AuthorityUpdates.authorityOf action).Within allowed :=
    fun action hwithin => hwithin.bind fun _ => trivial
  cases call with
  | register registry policyVersion =>
      have hget := within_getAuthority hordinary registry agentId
      apply Program.within_raiseIf.bind
      intro _
      apply (within_send (hordinary _ rfl)).bind
      intro row
      cases row with
      | some row => exact hget
      | none =>
          apply Program.within_ofExcept.bind
          intro machine
          apply (within_send (hordinary _ rfl)).bind
          intro _
          apply (within_send (hordinary _ rfl)).bind
          intro inserted
          exact Program.within_raiseIf.bind fun _ => hget
  | governanceReset registry reason =>
      refine hauthorityOf _ (Program.within_raiseIf.bind fun _ => ?_)
      exact within_rewrite hordinary registry agentId _ _
  | rotatePolicy registry policyVersion =>
      have hget := within_getAuthority hordinary registry agentId
      apply Program.within_raiseIf.bind
      intro _
      apply hget.bind
      intro _
      exact (within_send (hordinary _ rfl)).bind fun _ => hget
  | recordTrust registry trustDecision =>
      exact hauthorityOf _ (within_rewrite hordinary registry agentId _ _)
  | governancePromoteElevated registry reason proofId =>
      exact hauthorityOf _ (within_rewrite hordinary registry agentId _ _)
  | suspend registry reason =>
      exact hauthorityOf _ (within_rewrite hordinary registry agentId _ _)

theorem within_register (signedGrant : SignedCapabilityGrant) :
    (CapabilityGrantStore.register signedGrant).Within allowed := by
  apply (within_send (hordinary _ rfl)).bind
  intro inserted
  split
  · trivial
  · apply (within_send (hordinary _ rfl)).bind
    intro status
    split <;> trivial

theorem within_ensureRegistered (signedGrant : SignedCapabilityGrant) :
    (CapabilityGrantStore.ensureRegistered signedGrant).Within allowed := by
  apply (within_send (hordinary _ rfl)).bind
  intro row
  cases row with
  | some status => trivial
  | none => exact (within_register hordinary signedGrant).bind fun _ => trivial

theorem within_getSigned (crypto : Crypto) (grantId : String) :
    (CapabilityGrantStore.getSigned crypto grantId).Within allowed := by
  apply (within_send (hordinary _ rfl)).bind
  intro row
  cases row with
  | none => trivial
  | some payload =>
      apply (within_send (hordinary _ rfl)).bind
      intro current
      split <;> trivial

theorem within_revoke (grantId : String) :
    (CapabilityGrantStore.revoke grantId).Within allowed := by
  apply (within_send (hordinary _ rfl)).bind
  intro written
  split
  · trivial
  · apply (within_send (hordinary _ rfl)).bind
    intro status
    split <;> trivial

theorem within_consume (grantId : String) :
    (CapabilityGrantStore.consume grantId).Within allowed := by
  apply (within_send (hordinary _ rfl)).bind
  intro written
  split
  · trivial
  · apply (within_send (hordinary _ rfl)).bind
    intro status
    split <;> trivial

theorem within_authorize (gate : ExecutionGate) (signed : SignedCapabilityGrant)
    (intent : ActionIntent) (evidenceIds : List String) (now : Option Time) :
    (gate.authorize signed intent evidenceIds now).Within allowed := by
  have htime := within_currentTime hordinary now
  apply Program.within_ofExcept.bind
  intro grant
  apply htime.bind
  intro verifiedAt
  apply Program.within_ofExcept.bind
  intro _
  apply Program.within_raiseIf.bind
  intro _
  split
  case h_1 => trivial
  case h_2 registry _ =>
    have hget := within_getAuthority hordinary registry grant.agentId
    have hregister := within_ensureRegistered hordinary signed
    apply (within_wrap hget).bind
    intro authority
    apply Program.within_ofExcept.bind
    intro _
    apply (within_wrap hregister).bind
    intro status
    apply Program.within_raiseIf.bind
    intro _
    apply (within_send (hordinary _ rfl)).bind
    intro clock
    apply htime.bind
    intro current
    exact Program.within_ofExcept.bind fun _ => trivial

/-! ### Attempts -/

theorem within_getAttempt (attemptId : String) :
    (ExecutionAttemptStore.get attemptId).Within allowed := by
  apply (within_send (hordinary _ rfl)).bind
  intro row
  split <;> trivial

theorem within_findByGrantId (grantId : String) :
    (ExecutionAttemptStore.findByGrantId grantId).Within allowed := by
  apply (within_send (hordinary _ rfl)).bind
  intro row
  cases row with
  | none => trivial
  | some attemptId => exact (within_getAttempt hordinary attemptId).bind fun _ => trivial

theorem within_findByIdempotencyKey (idempotencyKey : String) :
    (ExecutionAttemptStore.findByIdempotencyKey idempotencyKey).Within allowed := by
  apply (within_send (hordinary _ rfl)).bind
  intro row
  cases row with
  | none => trivial
  | some attemptId => exact (within_getAttempt hordinary attemptId).bind fun _ => trivial

theorem within_create (hinsert : ∀ attempt, allowed (.insertAttempt attempt))
    (taskId grantId intentHash idempotencyKey : String) (now : Option Time)
    (retry : Bool) (uuid : String) :
    (ExecutionAttemptStore.create taskId grantId intentHash idempotencyKey now retry
      uuid).Within allowed := by
  apply Program.within_raiseIf.bind
  intro _
  apply Program.within_raiseIf.bind
  intro _
  apply Program.within_raiseIf.bind
  intro _
  apply Program.within_raiseIf.bind
  intro _
  apply (within_currentTime hordinary now).bind
  intro created
  apply (within_findByIdempotencyKey hordinary idempotencyKey).bind
  intro previous
  apply Program.within_ofExcept.bind
  intro attemptNumber
  apply (within_send (hinsert _)).bind
  intro inserted
  split <;> trivial

theorem within_transition (attemptId : String) (newState : ExecutionAttemptState)
    (now : Option Time) (fields : ExecutionAttemptStore.TransitionFields) :
    (ExecutionAttemptStore.transition attemptId newState now fields).Within allowed := by
  have hget := within_getAttempt hordinary attemptId
  apply hget.bind
  intro current
  split
  case isTrue =>
    apply (within_currentTime hordinary now).bind
    intro moment
    apply (within_send (hordinary _ rfl)).bind
    intro written
    exact Program.within_raiseIf.bind fun _ => hget
  case isFalse => trivial

theorem within_getEach (attemptIds : List String) :
    (ExecutionAttemptStore.getEach attemptIds).Within allowed := by
  induction attemptIds with
  | nil => trivial
  | cons attemptId rest ih =>
      exact (within_getAttempt hordinary attemptId).bind fun _ => ih.bind fun _ => trivial

theorem within_findStaleRunning (now : Option Time) (limit : ℕ) :
    (ExecutionAttemptStore.findStaleRunning now limit).Within allowed := by
  apply Program.within_raiseIf.bind
  intro _
  apply (within_currentTime hordinary now).bind
  intro point
  exact (within_send (hordinary _ rfl)).bind fun attemptIds =>
    within_getEach hordinary attemptIds

theorem within_expireEach (point : Time) (attemptIds : List String) :
    (ExecutionAttemptStore.expireEach point attemptIds).Within allowed := by
  induction attemptIds with
  | nil => trivial
  | cons attemptId rest ih =>
      have htransition := within_transition hordinary attemptId .timedOut (some point) {}
      refine Program.Within.bind (Program.Within.tryCatch
        (htransition.bind fun attempt => ?_) fun error => ?_)
          fun expired => ih.bind fun others => ?_
      · trivial
      · split <;> trivial
      · trivial

theorem within_expireLeases (now : Option Time) :
    (ExecutionAttemptStore.expireLeases now).Within allowed := by
  apply (within_currentTime hordinary now).bind
  intro point
  exact (within_send (hordinary _ rfl)).bind fun attemptIds =>
    within_expireEach hordinary point attemptIds

/-! ### The gate -/

theorem within_leaseAttempt (hinsert : ∀ attempt, allowed (.insertAttempt attempt))
    (execution : Execution) (grant : CapabilityGrant) :
    (ExecutionGate.leaseAttempt execution grant).Within allowed := by
  apply within_wrap
  apply (within_create hordinary hinsert _ _ _ _ _ _ _).bind
  intro attempt
  exact within_transition hordinary _ _ _ _

theorem within_abort (execution : Execution) (attemptId message : String) :
    (ExecutionGate.abort execution attemptId message).Within allowed := by
  apply (within_transition hordinary attemptId _ _ _).bind
  intro _
  trivial

/-- What follows the consumption of the grant in `beginRunning`. -/
theorem within_startRunning (execution : Execution) (grant : CapabilityGrant)
    (attempt : ExecutionAttempt) (executedAt : Time) :
    Program.Within allowed
      ((ExecutionGate.consumeNonce grant (ExecutionGate.receiptId execution)
        executedAt).bind fun _ =>
          (ExecutionAttemptStore.transition attempt.attemptId .running execution.now
            {}).bind fun _ => Program.done ()) := by
  have hnonce : (ExecutionGate.consumeNonce grant (ExecutionGate.receiptId execution)
      executedAt).Within allowed := by
    apply (within_send (hordinary _ rfl)).bind
    intro inserted
    exact Program.within_raiseIf
  apply hnonce.bind
  intro _
  apply (within_transition hordinary attempt.attemptId _ _ _).bind
  intro _
  trivial

theorem within_beginRunning (execution : Execution) (grant : CapabilityGrant)
    (attempt : ExecutionAttempt) (executedAt : Time) :
    (ExecutionGate.beginRunning execution grant attempt executedAt).Within allowed := by
  have habort : ∀ message : String,
      (ExecutionGate.abort execution attempt.attemptId message).Within allowed :=
    within_abort hordinary execution attempt.attemptId
  apply Program.Within.tryCatch
  · apply Program.Within.bind
    · apply (within_consume hordinary grant.grantId).tryCatch
      intro error
      split
      · apply (habort error.message).bind
        intro _
        trivial
      · trivial
    · intro _
      exact within_startRunning hordinary execution grant attempt executedAt
  · intro error
    split
    · trivial
    · apply (habort error.message).bind
      intro _
      trivial

/-! ### Recovery -/

theorem within_getReview (recoveryId : String) :
    (ExecutionRecoveryStore.get recoveryId).Within allowed := by
  apply (within_send (hordinary _ rfl)).bind
  intro row
  split <;> trivial

theorem within_getByAttempt (attemptId : String) :
    (ExecutionRecoveryStore.getByAttempt attemptId).Within allowed := by
  apply (within_send (hordinary _ rfl)).bind
  intro row
  cases row with
  | none => trivial
  | some recoveryId => exact (within_getReview hordinary recoveryId).bind fun _ => trivial

theorem within_openReview (attempt : ExecutionAttempt) (now : Option Time)
    (uuid : String) :
    (ExecutionRecoveryStore.openReview attempt now uuid).Within allowed := by
  have hget := within_getByAttempt hordinary attempt.attemptId
  apply Program.within_raiseIf.bind
  intro _
  apply Program.within_raiseIf.bind
  intro _
  apply hget.bind
  intro existing
  cases existing with
  | some existing => trivial
  | none =>
      apply (within_currentTime hordinary now).bind
      intro reviewedAt
      apply (within_send (hordinary _ rfl)).bind
      intro inserted
      split
      · trivial
      · apply hget.bind
        intro existing
        split <;> trivial

theorem within_resolve (recoveryId : String) (decision : RecoveryDecision)
    (verifierId outcomeId reason : String) (now : Option Time) :
    (ExecutionRecoveryStore.resolve recoveryId decision verifierId outcomeId reason
      now).Within allowed := by
  have hget := within_getReview hordinary recoveryId
  apply Program.within_raiseIf.bind
  intro _
  apply Program.within_raiseIf.bind
  intro _
  apply Program.within_raiseIf.bind
  intro _
  apply hget.bind
  intro current
  apply Program.within_raiseIf.bind
  intro _
  apply (within_currentTime hordinary now).bind
  intro reviewedAt
  apply (within_send (hordinary _ rfl)).bind
  intro written
  exact Program.within_raiseIf.bind fun _ => hget

theorem within_resolveVerified (recoveryId : String)
    (verification : ExecutionRecoveryStore.Verification) (now : Option Time) :
    (ExecutionRecoveryStore.resolveVerified recoveryId verification now).Within
      allowed := by
  rw [ExecutionRecoveryStore.resolveVerified]
  -- the unifier would otherwise evaluate the stripped texts
  generalize strip verification.verifier = verifierId
  generalize strip verification.outcomeId = outcomeId
  apply Program.within_raiseIf.bind
  intro _
  apply Program.within_raiseIf.bind
  intro _
  apply Program.within_raiseIf.bind
  intro _
  exact within_resolve hordinary _ _ _ _ _ _

theorem within_claimRetry (review : RecoveryReview) (now : Option Time) (uuid : String) :
    (ExecutionRecoveryStore.claimRetry review now uuid).Within allowed := by
  apply Program.within_raiseIf.bind
  intro _
  apply (within_currentTime hordinary now).bind
  intro current
  apply (within_send (hordinary _ rfl)).bind
  intro claimed
  apply Program.within_raiseIf.bind
  intro _
  apply (within_send (hordinary _ rfl)).bind
  intro operation
  split <;> trivial

theorem within_updateRetryOperation (recoveryId : String) (state : RetryState)
    (retryAttemptId : Option String) (now : Option Time) (claimToken : Option String) :
    (ExecutionRecoveryStore.updateRetryOperation recoveryId state retryAttemptId now
      claimToken).Within allowed := by
  apply (within_send (hordinary _ rfl)).bind
  intro row
  cases row with
  | none => trivial
  | some current =>
      have htime := within_currentTime hordinary now
      dsimp only
      split
      · exact Program.within_raiseIf.bind fun _ => trivial
      · split
        case isFalse => trivial
        case isTrue =>
          have hcheck : (ExecutionRecoveryStore.checkClaim current now claimToken).Within
              allowed := by
            apply Program.within_raiseIf.bind
            intro _
            split
            · trivial
            · exact htime.bind fun _ => Program.within_raiseIf
            · exact Program.within_raiseIf
          apply Program.within_raiseIf.bind
          intro _
          split
          case isTrue =>
            apply hcheck.bind
            intro _
            apply htime.bind
            intro updatedAt
            apply (within_send (hordinary _ rfl)).bind
            intro written
            exact Program.within_raiseIf.bind fun _ => within_send (hordinary _ rfl)
          case isFalse =>
            apply htime.bind
            intro updatedAt
            apply (within_send (hordinary _ rfl)).bind
            intro written
            exact Program.within_raiseIf.bind fun _ => within_send (hordinary _ rfl)

theorem within_append (chain : RecoveryEvidenceChain)
    (recoveryId attemptId eventType : String) (payload : List (String × EvidenceValue))
    (now : Option Time) :
    (chain.append recoveryId attemptId eventType payload now).Within allowed := by
  apply Program.within_raiseIf.bind
  intro _
  apply Program.within_raiseIf.bind
  intro _
  apply Program.within_raiseIf.bind
  intro _
  apply (within_currentTime hordinary now).bind
  intro occurredAt
  apply (within_send (hordinary _ rfl)).bind
  intro last
  apply (within_send (hordinary _ rfl)).bind
  intro inserted
  apply Program.within_raiseIf.bind
  intro _
  apply (within_send (hordinary _ rfl)).bind
  intro event
  split <;> trivial

theorem within_authorizeRetry (authorizer : ExecutionRetryAuthorizer)
    (attempt : ExecutionAttempt) (intent : ActionIntent)
    (signedActionIntent : SignedActionIntent) (evidenceIds : List String)
    (ttlSeconds : ℕ) (authorizedScope : Option String) (now : Option Time)
    (grantId nonce : Option String) (fresh : String) :
    (authorizer.authorize attempt intent signedActionIntent evidenceIds ttlSeconds
      authorizedScope now grantId nonce fresh).Within allowed := by
  apply Program.within_raiseIf.bind
  intro _
  apply (within_currentTime hordinary now).bind
  intro current
  apply Program.within_ofExcept.bind
  intro _
  apply (within_wrap (within_getAuthority hordinary _ _)).bind
  intro authority
  apply (within_send (hordinary _ rfl)).bind
  intro verifiedAt
  apply (within_send (hordinary _ rfl)).bind
  intro issuedAt
  apply (within_wrap Program.within_ofExcept).bind
  intro grant
  exact Program.within_raiseIf.bind fun _ => trivial

/-! ### The coordinator -/

theorem within_review (coordinator : ExecutionRecoveryCoordinator) (attemptId : String)
    (request : RetryRequest) :
    (coordinator.review attemptId request).Within allowed := by
  apply (within_getAttempt hordinary attemptId).bind
  intro attempt
  apply (within_openReview hordinary attempt none _).bind
  intro opened
  split
  · trivial
  · apply (within_append hordinary _ _ _ _ _ _).bind
    intro _
    apply Program.within_ofExcept.bind
    intro verification
    apply (within_resolveVerified hordinary _ _ _).bind
    intro resolved
    apply (within_append hordinary _ _ _ _ _ _).bind
    intro _
    trivial

theorem within_issueRetry (coordinator : ExecutionRecoveryCoordinator)
    (attempt : ExecutionAttempt) (request : RetryRequest) (now : Option Time)
    (retryGrantId : String) :
    (coordinator.issueRetry attempt request now retryGrantId).Within allowed := by
  rw [ExecutionRecoveryCoordinator.issueRetry]
  split
  · split
    · trivial
    · exact within_wrap (within_authorizeRetry hordinary _ _ _ _ _ _ _ _ _ _ _)
  · split
    · trivial
    · split <;> trivial

theorem within_reauthorizeRetry (coordinator : ExecutionRecoveryCoordinator)
    (attempt : ExecutionAttempt) (request : RetryRequest) (now : Option Time)
    (retryGrantId : String) :
    (coordinator.reauthorizeRetry attempt request now retryGrantId).Within allowed := by
  refine (within_issueRetry hordinary coordinator attempt request now retryGrantId).bind
    fun signedGrant => ?_
  apply Program.within_raiseIf.bind
  intro _
  apply Program.within_raiseIf.bind
  intro _
  apply Program.within_raiseIf.bind
  intro _
  split
  · trivial
  · apply (within_wrap (within_authorize hordinary _ _ _ _ _)).bind
    intro _
    trivial

theorem within_closeDecided (coordinator : ExecutionRecoveryCoordinator)
    (review : RecoveryReview) (attemptId : String) (now : Option Time)
    (state : ExecutionAttemptState) (error eventType : String) :
    (coordinator.closeDecided review attemptId now state error eventType).Within
      allowed := by
  have htransition := within_transition hordinary attemptId state now { error := error }
  apply (within_getAttempt hordinary attemptId).bind
  intro current
  split
  · apply (within_wrap htransition).bind
    intro _
    apply (within_append hordinary _ _ _ _ _ _).bind
    intro _
    trivial
  · apply (within_append hordinary _ _ _ _ _ _).bind
    intro _
    trivial

theorem within_resumeClaim (coordinator : ExecutionRecoveryCoordinator)
    (review : RecoveryReview) (operation : RetryOperation) (acquired : Bool)
    (now : Option Time) :
    (coordinator.resumeClaim review operation acquired now).Within allowed := by
  rw [ExecutionRecoveryCoordinator.resumeClaim]
  split
  · split
    · trivial
    · apply (within_getSigned hordinary _ _).bind
      intro persisted
      split
      · trivial
      · apply (within_updateRetryOperation hordinary _ _ _ _ _).bind
        intro _
        trivial
  · trivial

theorem within_retryGrant (coordinator : ExecutionRecoveryCoordinator)
    (review : RecoveryReview) (attempt : ExecutionAttempt) (attemptId : String)
    (request : RetryRequest) (now : Option Time) (operation : RetryOperation)
    (state : RetryState) :
    (coordinator.retryGrant review attempt attemptId request now operation state).Within
      allowed := by
  rw [ExecutionRecoveryCoordinator.retryGrant]
  split
  · split
    · trivial
    · apply (within_getSigned hordinary _ _).bind
      intro persisted
      split <;> trivial
  · apply (within_reauthorizeRetry hordinary _ _ _ _ _).bind
    intro signed
    apply (within_updateRetryOperation hordinary _ _ _ _ _).bind
    intro _
    apply (within_append hordinary _ _ _ _ _ _).bind
    intro _
    trivial

theorem within_closeOriginal (coordinator : ExecutionRecoveryCoordinator)
    (review : RecoveryReview) (attemptId : String) (now : Option Time) :
    (coordinator.closeOriginal review attemptId now).Within allowed := by
  apply (within_getAttempt hordinary attemptId).bind
  intro current
  split
  · refine Program.Within.bind (within_wrap ?_) fun _ => ?_
    · apply (within_transition hordinary _ _ _ _).bind
      intro _
      apply (within_append hordinary _ _ _ _ _ _).bind
      intro _
      trivial
    · trivial
  · split <;> trivial

theorem within_recordCreated (coordinator : ExecutionRecoveryCoordinator)
    (review : RecoveryReview) (attemptId : String) (grant : SignedCapabilityGrant)
    (retry : ExecutionAttempt) (now : Option Time) :
    (coordinator.recordCreated review attemptId grant retry now).Within allowed := by
  apply (within_updateRetryOperation hordinary _ _ _ _ _).bind
  intro _
  apply (within_append hordinary _ _ _ _ _ _).bind
  intro _
  trivial

variable (hinsert : ∀ attempt, allowed (.insertAttempt attempt))
include hinsert

theorem within_createRetry (coordinator : ExecutionRecoveryCoordinator)
    (review : RecoveryReview) (attempt : ExecutionAttempt) (attemptId : String)
    (request : RetryRequest) (now : Option Time) (grant : SignedCapabilityGrant) :
    (coordinator.createRetry review attempt attemptId request now grant).Within
      allowed := by
  apply (within_findByGrantId hordinary _).bind
  intro existing
  split
  · apply (within_recordCreated hordinary _ _ _ _ _ _).bind
    intro _
    trivial
  · refine within_wrap ?_
    apply (within_create hordinary hinsert _ _ _ _ _ _ _).bind
    intro next
    apply (within_recordCreated hordinary _ _ _ _ _ _).bind
    intro _
    trivial

theorem within_retrySafe (coordinator : ExecutionRecoveryCoordinator)
    (review : RecoveryReview) (attemptId : String) (request : RetryRequest)
    (now : Option Time) :
    (coordinator.retrySafe review attemptId request now).Within allowed := by
  apply (within_getAttempt hordinary attemptId).bind
  intro current
  apply (within_claimRetry hordinary review now _).bind
  intro claimed
  dsimp only
  split
  · exact within_getAttempt hordinary _
  · exact within_getAttempt hordinary _
  · apply (within_resumeClaim hordinary _ _ _ _ _).bind
    intro state
    apply (within_retryGrant hordinary _ _ _ _ _ _ _ _).bind
    intro grant
    apply (within_closeOriginal hordinary _ _ _ _).bind
    intro current
    exact within_createRetry hordinary hinsert _ _ _ _ _ _ _

theorem within_followReview (coordinator : ExecutionRecoveryCoordinator)
    (attemptId : String) (request : RetryRequest) (now : Option Time)
    (review : RecoveryReview) :
    (coordinator.followReview attemptId request now review).Within allowed := by
  rw [ExecutionRecoveryCoordinator.followReview]
  split
  · exact within_closeDecided hordinary _ _ _ _ _ _ _
  · exact within_closeDecided hordinary _ _ _ _ _ _ _
  · trivial
  · apply (within_retrySafe hordinary hinsert _ _ _ _ _).bind
    intro retry
    trivial

theorem within_retryIfSafe (coordinator : ExecutionRecoveryCoordinator)
    (attemptId : String) (request : RetryRequest) (now : Option Time) :
    (coordinator.retryIfSafe attemptId request now).Within allowed := by
  have hfollows := within_followReview hordinary hinsert coordinator attemptId request now
  apply (within_getAttempt hordinary attemptId).bind
  intro _
  apply (within_getByAttempt hordinary attemptId).bind
  intro known
  cases known with
  | none => exact (within_review hordinary _ _ _).bind hfollows
  | some known =>
      dsimp only
      split
      · exact (within_review hordinary _ _ _).bind hfollows
      · exact hfollows known

theorem within_recoverStaleRunning (coordinator : ExecutionRecoveryCoordinator)
    (contextFactory : ExecutionAttempt →
      Except Raised ExecutionRecoveryCoordinator.RecoveryContext)
    (now : Option Time) (limit : ℕ) :
    (coordinator.recoverStaleRunning contextFactory now limit).Within allowed := by
  apply (within_findStaleRunning hordinary now limit).bind
  intro candidates
  induction candidates with
  | nil => trivial
  | cons attempt rest ih =>
      apply Program.within_ofExcept.bind
      intro context
      refine Program.Within.bind (Program.Within.tryCatch
        (within_retryIfSafe hordinary hinsert _ _ _ _) fun error => ?_)
          fun result => ih.bind fun results => ?_
      · split
        · apply (within_getAttempt hordinary attempt.attemptId).bind
          intro current
          split <;> trivial
        · trivial
      · trivial

end Within

/-- Only `execute` runs an executor, and only it and the coordinator's retries
create attempts. -/
def SystemCall.mayExecute (call : SystemCall) : Statement → Prop
  | .startExecutor _ => False
  | .finishExecutor _ => False
  | .insertAttempt _ =>
      match call with
      | retryIfSafe .. => True
      | recoverStaleRunning .. => True
      | _ => False
  | _ => True

/-- The statements of every call but `execute`. -/
theorem within_body {call : SystemCall}
    (hcall : ∀ gate execution, call ≠ .execute gate execution) :
    call.body.Within call.mayExecute := by
  have hordinary : ∀ statement : Statement, statement.isOrdinary = true →
      call.mayExecute statement := by
    intro statement hstatement
    cases statement <;> trivial
  cases call with
  | execute gate execution => exact absurd rfl (hcall gate execution)
  | registerGrant signedGrant => exact within_answer (within_register hordinary _)
  | revokeGrant grantId => exact within_answer (within_revoke hordinary _)
  | authority agentId call => exact within_answer (within_authorityBody hordinary _ _)
  | transition attemptId newState now fields =>
      exact within_answer (within_transition hordinary _ _ _ _)
  | expireLeases now => exact within_answer (within_expireLeases hordinary _)
  | review coordinator attemptId request =>
      exact within_answer (within_review hordinary _ _ _)
  | retryIfSafe coordinator attemptId request now =>
      exact within_answer (within_retryIfSafe hordinary (fun _ => trivial) _ _ _ _)
  | recoverStaleRunning coordinator contextFactory now limit =>
      exact within_answer (within_recoverStaleRunning hordinary (fun _ => trivial) _ _ _ _)
  | claimRetry review now uuid => exact within_answer (within_claimRetry hordinary _ _ _)
  | updateRetryOperation recoveryId state retryAttemptId now claimToken =>
      exact within_answer (within_updateRetryOperation hordinary _ _ _ _ _)
  | advanceClock elapsed => exact within_answer (within_send (hordinary _ rfl))

/-! ## A database with one agent and one grant to run -/

namespace Sample

def crypto : Crypto where
  intentHash := fun _ => "intent-hash"
  evidenceHash := fun _ => "evidence-hash"
  identityError := fun _ => none
  intentSignatureValid := fun signed => signed.signature = "agent-signature"

def intent : ActionIntent where
  role := "researcher"
  action := "research"
  agentId := "agent-1"
  target := "docs"
  resource := "docs"

def signedActionIntent : SignedActionIntent where
  intent := intent
  intentHash := "intent-hash"
  agentIdentity := {
    identity := ⟨"agent-1", "researcher", by decide, by decide⟩
    publicKey := "agent-key"
    keyId := "agent-key-1"
    signature := "identity-signature" }
  issuedAt := .at 0
  nonce := "intent-nonce"
  signature := "agent-signature"
  expiresAt := .at (minutes 10)

def signer : CapabilitySigner where
  keyId := "issuer-1"
  signature := fun _ => "issuer-signature"
  signatureValid := fun signed => signed.signature = "issuer-signature"

/-- The grant as it is issued for the agent's first authority. -/
def grant : CapabilityGrant where
  grantId := "grant-1"
  taskId := "task-1"
  agentId := "agent-1"
  authorityEpoch := 1
  authorityState := .probation
  intentHash := "intent-hash"
  policyVersion := CapabilityPolicy.version
  evidenceHash := "evidence-hash"
  authorizedAction := "research"
  authorizedTarget := "docs"
  authorizedScope := "docs"
  issuedAt := .at 0
  expiresAt := .at (minutes 5)
  nonce := "nonce-1"
  signedActionIntent := .artifact signedActionIntent

def gate : ExecutionGate where
  crypto := crypto
  signer := some signer
  authorityRegistry := some {}

/-- A run of the grant under an idempotency key. -/
def execution (idempotencyKey uuid : String) : Execution where
  signed := signer.sign grant
  intent := intent
  outcome := .returned "done"
  executorId := "executor-1"
  executorVersion := "1"
  executorIdentityEpoch := 1
  idempotencyKey := idempotencyKey
  receiptToken := uuid
  uuid := uuid

def world : World :=
  ((AuthorityUpdates.body "agent-1" (.register {} none)).run execute (World.initial 0)).2

/-- What the moves lead to from the sample database. -/
def pool (moves : List (Move SystemCall)) : SystemPool :=
  (Pool.idle world).run execute SystemCall.body moves

theorem reachable_pool (moves : List (Move SystemCall)) :
    SystemPool.Reachable world (pool moves) :=
  Pool.reaches_run _ _

/-- A schedule that allows every move leads there too. -/
theorem reaches_pool {schedule : Schedule SystemCall Statement.Reply World Raised Answer}
    [∀ pool call, Decidable (schedule.starts pool call)]
    [∀ index statement history, Decidable (schedule.permits index statement history)]
    {moves : List (Move SystemCall)}
    (hallows : (Pool.idle world : SystemPool).allows execute SystemCall.body schedule
      moves = true) :
    Pool.Reaches execute SystemCall.body schedule (Pool.idle world) (pool moves) :=
  Pool.reaches_run_of_allows hallows

theorem call?_pool (first rest : List (Move SystemCall)) {index : ℕ} {call : SystemCall}
    (hcall : (pool first).call? index = some call) :
    (pool (first ++ rest)).call? index = some call := by
  rw [pool, Pool.run, List.foldl_append]
  exact Pool.call?_run_of_some hcall rest

/-- A trace around the event at a position. -/
theorem exists_split {α : Type} (list : List α) (index : ℕ) (holds : α → Bool)
    (hindex : (list[index]?).any holds = true) :
    ∃ element, list = list.take index ++ element :: list.drop (index + 1) ∧
      holds element = true := by
  obtain ⟨element, helement, hholds⟩ := Option.any_eq_true _ _ |>.mp hindex
  obtain ⟨hlength, rfl⟩ := List.getElem?_eq_some_iff.mp helement
  refine ⟨list[index], ?_, hholds⟩
  rw [List.getElem_cons_drop, List.take_append_drop]

/-- Call `index` runs `count` statements. -/
def advance (index count : ℕ) : List (Move SystemCall) :=
  List.replicate count (.advance index)

end Sample

end AegisForge.Shared
