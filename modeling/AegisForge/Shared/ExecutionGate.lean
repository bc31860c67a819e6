import AegisForge.Shared.AgentAuthority
import AegisForge.Shared.CapabilityGrantStore
import AegisForge.Shared.ExecutionAttempt

/-!
# The execution gate

`authorize` checks a signed grant against the current authority and the grant
store; `execute` then creates and leases an attempt, consumes the grant and
its nonce, runs the executor and records the receipt.  Each step commits on
its own.
-/

namespace AegisForge.Shared

open AegisForge.Core AegisForge.Concurrency

structure ExecutionReceipt where
  receiptId : String
  taskId : String
  grantId : String
  nonce : String
  intentHash : String
  policyVersion : String
  action : String
  target : String
  authorizedScope : String
  status : String
  executedAt : Time
  result : Option String := none
  error : String := ""
  agentId : String := ""
  authorityEpoch : ℕ := 0
  authorityState : AuthorityState
  executorId : String := ""
  executorVersion : String := ""
  executorImplementationDigest : Option String := none
  executorIdentityEpoch : ℕ := 0
  deriving DecidableEq, Repr

/-- What the injected executor does: return a result, or raise an exception
with its type's name and text. -/
inductive ExecutorOutcome
  | returned (result : String)
  | raised (typeName message : String)
  deriving DecidableEq, Repr

/-- A gate over a database; the signer and the registry may be missing. -/
structure ExecutionGate where
  crypto : Crypto
  signer : Option CapabilitySigner
  authorityRegistry : Option AgentAuthorityRegistry

/-- The arguments of `execute`, with what `secrets` and `uuid` draw for it. -/
structure Execution where
  signed : SignedCapabilityGrant
  intent : ActionIntent
  outcome : ExecutorOutcome
  evidenceIds : List String := []
  now : Option Time := none
  executorId : String := ""
  executorVersion : String := ""
  executorImplementationDigest : Option String := none
  executorIdentityEpoch : ℕ := 0
  idempotencyKey : String := ""
  receiptToken : String
  uuid : String

namespace ExecutionGate

def gateError (message : String) : Raised := ⟨.executionGateError, message⟩

/-- `_grant`. -/
def grant (gate : ExecutionGate) (signed : SignedCapabilityGrant) :
    Except Raised CapabilityGrant :=
  match gate.signer with
  | none => .error (gateError "signer_required")
  | some signer =>
      match signer.verify gate.crypto signed with
      | .ok grant => .ok grant
      | .error error => .error (gateError error.message)

/-- The grant that passes is the one that was signed. -/
theorem grant_eq_ok {gate : ExecutionGate} {signed : SignedCapabilityGrant}
    {verified : CapabilityGrant} (hgrant : gate.grant signed = .ok verified) :
    verified = signed.grant := by
  rw [grant] at hgrant
  split at hgrant
  · cases hgrant
  · split at hgrant
    case h_1 signer _ _ hverify =>
      cases hgrant
      exact CapabilitySigner.verify_eq_ok hverify
    case h_2 => cases hgrant

/-- `_scope`. -/
def scope (intent : ActionIntent) : String :=
  if intent.destination = "" then intent.resource else intent.destination

def consumeNonce (grant : CapabilityGrant) (receiptId : String) (now : Time) :
    Action Unit := do
  let inserted ← send (.insertConsumption {
    nonce := grant.nonce
    grantId := grant.grantId
    taskId := grant.taskId
    consumedAt := now
    receiptId := receiptId })
  Program.raiseIf (inserted = false) (gateError "grant_replayed")

def verifySignedActionIntent (gate : ExecutionGate) (grant : CapabilityGrant)
    (current : Time) : Except Raised Unit :=
  if grant.signedActionIntent = .empty then
    .error (gateError "signed_action_intent_required")
  else
    let verified := do
      let signed ← SignedActionIntent.fromDict grant.signedActionIntent
      signed.verify gate.crypto current
      pure signed
    match verified with
    | .error _ => .error (gateError "signed_action_intent_invalid")
    | .ok signed =>
        if signed.agentIdentity.identity.agentId ≠ grant.agentId then
          .error (gateError "signed_action_intent_agent_mismatch")
        else if signed.intentHash ≠ grant.intentHash then
          .error (gateError "signed_action_intent_hash_mismatch")
        else .ok ()

/-- The comparison of a grant with the current authority. -/
def checkAuthority (grant : CapabilityGrant) (authority : AgentAuthority) :
    Except Raised Unit :=
  if grant.authorityEpoch ≠ authority.authorityEpoch then
    .error (gateError "authority_epoch_mismatch")
  else if grant.authorityState ≠ authority.state then
    .error (gateError "authority_state_mismatch")
  else if grant.policyVersion ≠ authority.policyVersion then
    .error (gateError "authority_policy_version_mismatch")
  else .ok ()

/-- The checks that remain once the grant is registered and active. -/
def checkConsumable (gate : ExecutionGate) (grant : CapabilityGrant)
    (intent : ActionIntent) (evidenceIds : List String) (clock current : Time) :
    Except Raised Unit :=
  match consumeCapabilityGrant gate.crypto grant intent evidenceIds clock current with
  | .error error =>
      .error (if error.cls = .capabilityGrantError then gateError error.message else error)
  | .ok _ =>
      if grant.authorizedScope ≠ scope intent then
        .error (gateError "authorized_scope_mismatch")
      else .ok ()

def authorize (gate : ExecutionGate) (signed : SignedCapabilityGrant)
    (intent : ActionIntent) (evidenceIds : List String) (now : Option Time) :
    Action CapabilityGrant := do
  let grant ← Program.ofExcept (gate.grant signed)
  let verifiedAt ← currentTime now
  Program.ofExcept (gate.verifySignedActionIntent grant verifiedAt)
  Program.raiseIf (grant.policyVersion ≠ CapabilityPolicy.version)
    (gateError "policy_version_mismatch")
  match gate.authorityRegistry with
  | none => .fail (gateError "authority_registry_required")
  | some registry =>
      let authority ← wrap (· = .agentAuthorityError) gateError (registry.get grant.agentId)
      Program.ofExcept (checkAuthority grant authority)
      let status ← wrap (· = .capabilityGrantStoreError) gateError
        (CapabilityGrantStore.ensureRegistered signed)
      Program.raiseIf (status ≠ .active)
        (gateError (if status = .revoked then "grant_revoked" else "grant_replayed"))
      let clock ← send .readClock
      let current ← currentTime now
      Program.ofExcept (gate.checkConsumable grant intent evidenceIds clock current)
      pure grant

/-- The checks of the executor's identity. -/
def checkExecutor (execution : Execution) : Except Raised Unit :=
  if execution.executorId = "" then .error (gateError "executor_identity_required")
  else if execution.executorVersion = "" then
    .error (gateError "executor_version_required")
  else if execution.executorIdentityEpoch < 1 then
    .error (gateError "executor_identity_epoch_required")
  else .ok ()

def receiptId (execution : Execution) : String := "receipt_" ++ execution.receiptToken

/-- `EXECUTED` with the result, or `FAILED` with the exception's text. -/
def receipt (execution : Execution) (grant : CapabilityGrant) (executedAt : Time) :
    ExecutionReceipt where
  receiptId := receiptId execution
  taskId := grant.taskId
  grantId := grant.grantId
  nonce := grant.nonce
  intentHash := grant.intentHash
  policyVersion := grant.policyVersion
  action := execution.intent.action
  target := execution.intent.target
  authorizedScope := grant.authorizedScope
  status :=
    match execution.outcome with
    | .returned _ => "EXECUTED"
    | .raised _ _ => "FAILED"
  executedAt := executedAt
  result :=
    match execution.outcome with
    | .returned result => some result
    | .raised _ _ => none
  error :=
    match execution.outcome with
    | .returned _ => ""
    | .raised typeName message => typeName ++ ": " ++ (message.take 500).toString
  agentId := grant.agentId
  authorityEpoch := grant.authorityEpoch
  authorityState := grant.authorityState
  executorId := execution.executorId
  executorVersion := execution.executorVersion
  executorImplementationDigest := execution.executorImplementationDigest
  executorIdentityEpoch := execution.executorIdentityEpoch

/-- The attempt of an execution, created and leased. -/
def leaseAttempt (execution : Execution) (grant : CapabilityGrant) :
    Action ExecutionAttempt :=
  wrap (· = .executionAttemptError) gateError do
    let attempt ← ExecutionAttemptStore.create grant.taskId grant.grantId grant.intentHash
      (if execution.idempotencyKey = "" then grant.nonce else execution.idempotencyKey)
      execution.now false execution.uuid
    ExecutionAttemptStore.transition attempt.attemptId .leased execution.now {
      executorId := execution.executorId
      executorVersion := execution.executorVersion
      executorIdentityEpoch := execution.executorIdentityEpoch }

def abort (execution : Execution) (attemptId message : String) : Action Unit := do
  let _ ← ExecutionAttemptStore.transition attemptId .aborted execution.now
    { error := message }
  pure ()

/-- The block between lease and executor: consume the grant and its nonce and
mark the attempt `RUNNING`.  A refused grant aborts the attempt inside the
block; any other exception that is not the gate's own aborts it outside. -/
def beginRunning (execution : Execution) (grant : CapabilityGrant)
    (attempt : ExecutionAttempt) (executedAt : Time) : Action Unit :=
  (do
    let _ ← (CapabilityGrantStore.consume grant.grantId).tryCatch fun error =>
      if error.cls = .capabilityGrantStoreError then do
        abort execution attempt.attemptId error.message
        .fail (gateError error.message)
      else .fail error
    consumeNonce grant (receiptId execution) executedAt
    let _ ← ExecutionAttemptStore.transition attempt.attemptId .running execution.now {}
    pure () : Action Unit).tryCatch fun error =>
      if error.cls = .executionGateError then .fail error
      else do
        abort execution attempt.attemptId error.message
        .fail error

/-- `executor()`. -/
def runExecutor (grantId : String) : Action Unit := do
  send (.startExecutor grantId)
  send (.finishExecutor grantId)

/-- The terminal state that a receipt records. -/
def terminalState (receipt : ExecutionReceipt) : ExecutionAttemptState :=
  if receipt.status = "EXECUTED" then .succeeded else .failed

/-- Run the executor and record its receipt on the attempt. -/
def runAndRecord (execution : Execution) (grant : CapabilityGrant)
    (attempt : ExecutionAttempt) (executedAt : Time) : Action ExecutionReceipt := do
  runExecutor grant.grantId
  let receipt := receipt execution grant executedAt
  let _ ← ExecutionAttemptStore.transition attempt.attemptId (terminalState receipt)
    execution.now { receiptId := receipt.receiptId, error := receipt.error }
  pure receipt

def execute (gate : ExecutionGate) (execution : Execution) : Action ExecutionReceipt := do
  let grant ← gate.authorize execution.signed execution.intent execution.evidenceIds
    execution.now
  Program.ofExcept (checkExecutor execution)
  let executedAt ← currentTime execution.now
  let attempt ← leaseAttempt execution grant
  beginRunning execution grant attempt executedAt
  runAndRecord execution grant attempt executedAt

end ExecutionGate

end AegisForge.Shared
