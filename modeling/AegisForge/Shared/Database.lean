import AegisForge.Concurrency.Program
import AegisForge.Shared.Rows

/-!
# The execution database

`Statement` lists what the authority, grant, attempt and recovery stores send
to their database: single statements, and transactions that commit as one.
The clock and the injected executor are reached through statements too, so
that an interleaving orders them with everything else.
-/

namespace AegisForge.Shared

open AegisForge.Core AegisForge.Concurrency

/-- The tables, and the clock that callers without a `now` read. -/
structure World where
  clock : Time
  registry : Table AuthorityRegistryRow.agentId AuthorityRegistryRow.agentId
  authority : Table AuthorityStateRecord.agentId AuthorityStateRecord.agentId
  transitions : List AuthorityTransition
  grants : Table GrantRow.grantId GrantRow.nonce
  consumptions : Table ConsumptionRow.nonce ConsumptionRow.nonce
  attempts : Table ExecutionAttempt.attemptId ExecutionAttempt.keyNumber
  reviews : Table RecoveryReview.recoveryId RecoveryReview.attemptId
  operations : Table RetryOperation.recoveryId RetryOperation.attemptId
  evidence : Table EvidenceEvent.eventHash EvidenceEvent.eventHash

/-- The database before anything was written. -/
def World.initial (clock : Time) : World where
  clock := clock
  registry := .empty
  authority := .empty
  transitions := []
  grants := .empty
  consumptions := .empty
  attempts := .empty
  reviews := .empty
  operations := .empty
  evidence := .empty

inductive Statement
  | readClock
  | advanceClock (elapsed : ℕ)
  | startExecutor (grantId : String)
  | finishExecutor (grantId : String)
  | selectRegistryRow (agentId : String)
  | insertRegistryRow (agentId policyVersion : String)
  | incrementEpoch (agentId : String)
  | updatePolicyVersion (agentId policyVersion : String)
  | selectAuthorityState (agentId : String)
  | selectAuthorityTransitions (agentId : String)
  | saveAuthority (record : AuthorityStateRecord) (history : List AuthorityTransition)
  | selectGrantStatus (grantId : String)
  | insertGrant (payload : SignedCapabilityGrant)
  | selectGrantPayload (grantId : String)
  | revokeGrant (grantId : String)
  | consumeGrant (grantId : String)
  | insertConsumption (row : ConsumptionRow)
  | selectLatestAttemptId (idempotencyKey : String)
  | selectAttemptIdByGrant (grantId : String)
  | selectAttempt (attemptId : String)
  | insertAttempt (attempt : NewAttempt)
  | updateAttempt (change : AttemptChange)
  | selectExpiredLeases (point : Time)
  | selectStaleRunning (point : Time) (limit : ℕ)
  | selectReviewIdByAttempt (attemptId : String)
  | selectReview (recoveryId : String)
  | insertReview (review : RecoveryReview)
  | resolveReview (resolution : Resolution)
  | claimOperation (claim : RetryClaim)
  | selectOperation (recoveryId : String)
  | updateOperation (change : RetryChange)
  | selectLastEventHash (recoveryId : String)
  | insertEvidence (event : EvidenceEvent)
  | selectEvidence (eventHash : String)

/-- Whether an `INSERT` committed, or which constraint refused it. -/
inductive Inserted
  | committed
  | duplicateKey
  | duplicateUnique
  deriving DecidableEq, Repr

/-- What a claim's transaction ended in. -/
inductive Claimed
  | acquired
  | held
  | integrityError
  deriving DecidableEq, Repr

/-- What a statement answers; a Boolean tells whether a row was written. -/
abbrev Statement.Reply : Statement → Type
  | readClock => Time
  | advanceClock _ => Unit
  | startExecutor _ => Unit
  | finishExecutor _ => Unit
  | selectRegistryRow _ => Option AuthorityRegistryRow
  | insertRegistryRow _ _ => Bool
  | incrementEpoch _ => Unit
  | updatePolicyVersion _ _ => Unit
  | selectAuthorityState _ => Option AuthorityStateRecord
  | selectAuthorityTransitions _ => List AuthorityTransition
  | saveAuthority _ _ => Unit
  | selectGrantStatus _ => Option GrantStatus
  | insertGrant _ => Bool
  | selectGrantPayload _ => Option SignedCapabilityGrant
  | revokeGrant _ => Bool
  | consumeGrant _ => Bool
  | insertConsumption _ => Bool
  | selectLatestAttemptId _ => Option String
  | selectAttemptIdByGrant _ => Option String
  | selectAttempt _ => Option ExecutionAttempt
  | insertAttempt _ => Inserted
  | updateAttempt _ => Bool
  | selectExpiredLeases _ => List String
  | selectStaleRunning _ _ => List String
  | selectReviewIdByAttempt _ => Option String
  | selectReview _ => Option RecoveryReview
  | insertReview _ => Bool
  | resolveReview _ => Bool
  | claimOperation _ => Claimed
  | selectOperation _ => Option RetryOperation
  | updateOperation _ => Bool
  | selectLastEventHash _ => Option String
  | insertEvidence _ => Bool
  | selectEvidence _ => Option EvidenceEvent

/-! ## Queries -/

/-- `ORDER BY attempt_number DESC LIMIT 1`. -/
def latestAttempt (rows : List ExecutionAttempt) (idempotencyKey : String) :
    Option ExecutionAttempt :=
  (rows.filter fun row => row.idempotencyKey = idempotencyKey).foldl
    (fun best row =>
      match best with
      | none => some row
      | some latest =>
          if latest.attemptNumber < row.attemptNumber then some row else some latest)
    none

/-- The leased attempts whose lease is over at `point`. -/
def expiredLeases (rows : List ExecutionAttempt) (point : Time) : List String :=
  (rows.filter fun row =>
    row.state = .leased && row.leaseExpiresAt.any fun expires => decide (expires ≤ point)).map
      ExecutionAttempt.attemptId

/-- `ORDER BY lease_expires_at ASC, attempt_id ASC`. -/
def leaseOrder (left right : ExecutionAttempt) : Bool :=
  match left.leaseExpiresAt, right.leaseExpiresAt with
  | some first, some second =>
      decide (first < second) || (first = second && decide (¬right.attemptId < left.attemptId))
  | _, _ => true

/-- The running attempts without a receipt whose lease is over at `point`,
ordered by lease and id. -/
def staleRunning (rows : List ExecutionAttempt) (point : Time) (limit : ℕ) :
    List String :=
  (((rows.filter fun row =>
    row.state = .running && row.receiptId = "" &&
      row.leaseExpiresAt.any fun expires => decide (expires ≤ point)).insertionSort
    fun left right => leaseOrder left right).map ExecutionAttempt.attemptId).take limit

/-! ## Changes -/

/-- `INSERT ... ON CONFLICT(agent_id) DO UPDATE`. -/
def upsertAuthority
    (table : Table AuthorityStateRecord.agentId AuthorityStateRecord.agentId)
    (record : AuthorityStateRecord) :
    Table AuthorityStateRecord.agentId AuthorityStateRecord.agentId :=
  match table.insert? record with
  | some after => after
  | none =>
      table.modify record.agentId record.replace record.replace_agentId
        record.replace_agentId

/-- `UPDATE ... SET status WHERE grant_id=? AND status='ACTIVE'`. -/
def finishGrant (table : Table GrantRow.grantId GrantRow.nonce) (grantId : String)
    (status : GrantStatus) : Table GrantRow.grantId GrantRow.nonce :=
  table.modify grantId (GrantRow.finish status) (GrantRow.finish_grantId status)
    (GrantRow.finish_nonce status)

def isActive (table : Table GrantRow.grantId GrantRow.nonce) (grantId : String) : Bool :=
  (table.lookup grantId).any fun row => row.status = .active

/-! ## Execution -/

/-- What one committed statement answers, and the database it leaves. -/
def execute : Execution Statement.Reply World
  | .readClock, world => (world.clock, world)
  | .advanceClock elapsed, world => ((), { world with clock := world.clock + elapsed })
  | .startExecutor _, world => ((), world)
  | .finishExecutor _, world => ((), world)
  | .selectRegistryRow agentId, world => (world.registry.lookup agentId, world)
  | .insertRegistryRow agentId policyVersion, world =>
      match world.registry.insert? ⟨agentId, policyVersion, 1⟩ with
      | some registry => (true, { world with registry := registry })
      | none => (false, world)
  | .incrementEpoch agentId, world =>
      ((), { world with
        registry := world.registry.modify agentId AuthorityRegistryRow.nextEpoch
          AuthorityRegistryRow.nextEpoch_agentId AuthorityRegistryRow.nextEpoch_agentId })
  | .updatePolicyVersion agentId policyVersion, world =>
      ((), { world with
        registry := world.registry.modify agentId
          (AuthorityRegistryRow.rotate policyVersion)
          (AuthorityRegistryRow.rotate_agentId policyVersion)
          (AuthorityRegistryRow.rotate_agentId policyVersion) })
  | .selectAuthorityState agentId, world => (world.authority.lookup agentId, world)
  | .selectAuthorityTransitions agentId, world =>
      (world.transitions.filter fun transition => transition.agentId = agentId, world)
  | .saveAuthority record history, world =>
      ((), { world with
        authority := upsertAuthority world.authority record
        transitions :=
          (world.transitions.filter fun transition =>
            transition.agentId ≠ record.agentId) ++ history })
  | .selectGrantStatus grantId, world =>
      ((world.grants.lookup grantId).map GrantRow.status, world)
  | .insertGrant payload, world =>
      match world.grants.insert? ⟨payload, .active⟩ with
      | some grants => (true, { world with grants := grants })
      | none => (false, world)
  | .selectGrantPayload grantId, world =>
      ((world.grants.lookup grantId).map GrantRow.payload, world)
  | .revokeGrant grantId, world =>
      (isActive world.grants grantId,
        { world with grants := finishGrant world.grants grantId .revoked })
  | .consumeGrant grantId, world =>
      (isActive world.grants grantId,
        { world with grants := finishGrant world.grants grantId .consumed })
  | .insertConsumption row, world =>
      match world.consumptions.insert? row with
      | some consumptions => (true, { world with consumptions := consumptions })
      | none => (false, world)
  | .selectLatestAttemptId idempotencyKey, world =>
      ((latestAttempt world.attempts.rows idempotencyKey).map ExecutionAttempt.attemptId,
        world)
  | .selectAttemptIdByGrant grantId, world =>
      ((world.attempts.rows.find? fun row => row.grantId = grantId).map
        ExecutionAttempt.attemptId, world)
  | .selectAttempt attemptId, world => (world.attempts.lookup attemptId, world)
  | .insertAttempt attempt, world =>
      match world.attempts.insert? attempt.row with
      | some attempts => (.committed, { world with attempts := attempts })
      | none =>
          match world.attempts.lookup attempt.attemptId with
          | some _ => (.duplicateKey, world)
          | none => (.duplicateUnique, world)
  | .updateAttempt change, world =>
      ((world.attempts.lookup change.attemptId).any fun row =>
          row.state = change.expected,
        { world with
          attempts := world.attempts.modify change.attemptId change.apply
            change.apply_attemptId change.apply_keyNumber })
  | .selectExpiredLeases point, world => (expiredLeases world.attempts.rows point, world)
  | .selectStaleRunning point limit, world =>
      (staleRunning world.attempts.rows point limit, world)
  | .selectReviewIdByAttempt attemptId, world =>
      ((world.reviews.rows.find? fun row => row.attemptId = attemptId).map
        RecoveryReview.recoveryId, world)
  | .selectReview recoveryId, world => (world.reviews.lookup recoveryId, world)
  | .insertReview review, world =>
      match world.reviews.insert? review with
      | some reviews => (true, { world with reviews := reviews })
      | none => (false, world)
  | .resolveReview resolution, world =>
      ((world.reviews.lookup resolution.recoveryId).any fun row => row.decision = .unknown,
        { world with
          reviews := world.reviews.modify resolution.recoveryId resolution.apply
            resolution.apply_recoveryId resolution.apply_attemptId })
  | .claimOperation claim, world =>
      match world.operations.lookup claim.recoveryId with
      | none =>
          match world.operations.insert? claim.row with
          | some operations => (.acquired, { world with operations := operations })
          | none => (.integrityError, world)
      | some operation =>
          (if claim.takesOver operation then .acquired else .held,
            { world with
              operations := world.operations.modify claim.recoveryId claim.apply
                claim.apply_recoveryId claim.apply_attemptId })
  | .selectOperation recoveryId, world => (world.operations.lookup recoveryId, world)
  | .updateOperation change, world =>
      ((world.operations.lookup change.recoveryId).any fun row =>
          row.state = change.expected,
        { world with
          operations := world.operations.modify change.recoveryId change.apply
            change.apply_recoveryId change.apply_attemptId })
  | .selectLastEventHash recoveryId, world =>
      (((world.evidence.rows.filter fun event =>
        event.body.recoveryId = recoveryId).getLast?).map EvidenceEvent.eventHash, world)
  | .insertEvidence event, world =>
      match world.evidence.insert? event with
      | some evidence => (true, { world with evidence := evidence })
      | none => (false, world)
  | .selectEvidence eventHash, world => (world.evidence.lookup eventHash, world)

/-! ## Programs -/

/-- A call that works on the execution database. -/
abbrev Action (Value : Type) : Type := Program Statement.Reply Raised Value

/-- Execute one statement and answer its reply. -/
def send (statement : Statement) : Action statement.Reply := Program.call statement

def throw {Value : Type} (cls : ExceptionClass) (message : String) : Action Value :=
  .fail ⟨cls, message⟩

/-- `now or datetime.now(timezone.utc)`. -/
def currentTime : Option Time → Action Time
  | some now => pure now
  | none => send .readClock

/-- `except catches as exc: raise wrapped(str(exc))`. -/
def wrap {Value : Type} (catches : ExceptionClass → Bool)
    (wrapped : String → Raised) (action : Action Value) : Action Value :=
  action.mapError fun error =>
    if catches error.cls then wrapped error.message else error

end AegisForge.Shared
