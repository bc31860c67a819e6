import AegisForge.Core.IsoTime
import AegisForge.Shared.ExecutionRecovery

/-!
# Takeover of retry claims

`claim_retry` on the rows as they are stored, with their times as texts.  The
test for a stale lease treats a missing one as over; the `UPDATE` behind it
compares the lease with `=`, which `NULL` never passes.
-/

namespace AegisForge.Shared.RetryTakeover

open AegisForge.Core

/-! ## Times -/

/-- `value + timedelta(seconds=count)`, which raises `OverflowError` on `none`. -/
def addSeconds? (value : DateTime) (count : ℕ) : Option DateTime :=
  let total := value.date.ordinal * dayMicroseconds + value.clock.total + count * 1000000
  (Date.ofOrdinal? (total / dayMicroseconds)).map fun date => {
    date := date
    clock := Clock.ofTotal (total % dayMicroseconds)
    offset := value.offset
    in_range := Clock.inRange_ofTotal (Nat.mod_lt _ (by decide)) }

/-- `left <= right`, which raises `TypeError` on `none`: a naive time and one
with an offset have no order. -/
def le? (left right : DateTime) : Option Bool :=
  if left.offset.isSome = right.offset.isSome then some (left.instant ≤ right.instant)
  else none

/-! ## Rows -/

structure StoredOperation where
  recoveryId : String
  attemptId : String
  operationKey : String
  state : String
  retryGrantId : String
  retryAttemptId : Option String
  createdAt : String
  updatedAt : String
  claimToken : Option String
  leaseExpiresAt : Option String
  deriving DecidableEq

abbrev Operations : Type := Table StoredOperation.recoveryId StoredOperation.attemptId

/-- The values that `claim_retry` brings to its transaction. -/
structure Claim where
  recoveryId : String
  attemptId : String
  currentTime : DateTime
  leaseExpiresAt : DateTime
  claimToken : String

namespace Claim

def operationKey (claim : Claim) : String := "retry_" ++ claim.recoveryId

def grantId (claim : Claim) : String := "retry-grant_" ++ claim.recoveryId

/-- The row of the `INSERT`. -/
def row (claim : Claim) : StoredOperation where
  recoveryId := claim.recoveryId
  attemptId := claim.attemptId
  operationKey := claim.operationKey
  state := "CLAIMED"
  retryGrantId := claim.grantId
  retryAttemptId := none
  createdAt := claim.currentTime.isoText
  updatedAt := claim.currentTime.isoText
  claimToken := some claim.claimToken
  leaseExpiresAt := some claim.leaseExpiresAt.isoText

/-- The values of the `UPDATE`. -/
def values (claim : Claim) (operation : StoredOperation) : StoredOperation :=
  { operation with
    claimToken := some claim.claimToken
    leaseExpiresAt := some claim.leaseExpiresAt.isoText
    updatedAt := claim.currentTime.isoText }

theorem values_recoveryId (claim : Claim) (operation : StoredOperation) :
    (claim.values operation).recoveryId = operation.recoveryId := rfl

theorem values_attemptId (claim : Claim) (operation : StoredOperation) :
    (claim.values operation).attemptId = operation.attemptId := rfl

end Claim

/-- `left = right` of SQL on columns that may be `NULL`. -/
def sqlEqual : Option String → Option String → Bool
  | some left, some right => left = right
  | _, _ => false

/-! ## The claim -/

variable (fromisoformat : String → Option DateTime)

/-- `stale`; `fromisoformat` raises `ValueError` on `none`. -/
def isStale (current : DateTime) : Option String → Except Raised Bool
  | none => .ok true
  | some text =>
      if text = "" then .ok true
      else match fromisoformat text with
        | none => .ok true
        | some expires =>
            match le? expires current with
            | none =>
                .error ⟨.typeError, "can't compare offset-naive and offset-aware datetimes"⟩
            | some stale => .ok stale

/-- Whether the row is the one that was read, as the `WHERE` of the `UPDATE` says. -/
def isGuarded (read : StoredOperation) (operation : StoredOperation) : Bool :=
  operation.state = "CLAIMED" && sqlEqual operation.leaseExpiresAt read.leaseExpiresAt

/-- The transaction of `claim_retry`: whether it acquired, and the table. -/
def transaction (claim : Claim) (operations : Operations) :
    Except Raised (Bool × Operations) :=
  match operations.lookup claim.recoveryId with
  | none =>
      match operations.insert? claim.row with
      | none => .error ⟨.integrityError,
          "UNIQUE constraint failed: execution_recovery_operations.attempt_id"⟩
      | some after =>
          if claim.operationKey ∈ operations.rows.map StoredOperation.operationKey then
            .error ⟨.integrityError,
              "UNIQUE constraint failed: execution_recovery_operations.operation_key"⟩
          else .ok (true, after)
  | some read =>
      if read.state = "CLAIMED" then do
        if ← isStale fromisoformat claim.currentTime read.leaseExpiresAt then
          pure (operations.updateWhere claim.recoveryId (isGuarded read) claim.values
            claim.values_recoveryId claim.values_attemptId)
        else pure (false, operations)
      else .ok (false, operations)

/-- `claim_retry` from its transaction on, which is rolled back when it raises. -/
def claimOperation (claim : Claim) (operations : Operations) :
    Except Raised (StoredOperation × Bool) × Operations :=
  match transaction fromisoformat claim operations with
  | .error error => (.error error, operations)
  | .ok (acquired, after) =>
      match after.lookup claim.recoveryId with
      | none =>
          (.error (ExecutionRecoveryStore.recoveryError "retry_claim_conflict"), after)
      | some row => (.ok (row, acquired), after)

/-- `claim_retry`, where `clock` is `datetime.now(timezone.utc)` and `uuid` what
`uuid.uuid4().hex` draws. -/
def claimRetry (clock : DateTime) (review : RecoveryReview) (now : Option DateTime)
    (uuid : String) (operations : Operations) :
    Except Raised (StoredOperation × Bool) × Operations :=
  if review.decision ≠ .safeToRetry then
    (.error (ExecutionRecoveryStore.recoveryError "retry_not_safe"), operations)
  else
    match addSeconds? (now.getD clock) ExecutionRecoveryStore.claimLeaseSeconds with
    | none => (.error ⟨.overflowError, "date value out of range"⟩, operations)
    | some leaseExpiresAt => claimOperation fromisoformat {
        recoveryId := review.recoveryId
        attemptId := review.attemptId
        currentTime := now.getD clock
        leaseExpiresAt := leaseExpiresAt
        claimToken := "claim_" ++ uuid } operations

/-! ## Leases -/

/-- The lease is missing, unreadable or has passed, a naive one read as UTC. -/
def IsOver (current : DateTime) (lease : Option String) : Prop :=
  ∀ text ∈ lease, ∀ expires ∈ fromisoformat text, expires.instant ≤ current.instant

/-- There is a lease, and if it can be read it has an order with the time. -/
def IsTakeable (current : DateTime) (lease : Option String) : Prop :=
  ∃ text, lease = some text ∧ (text ≠ "" → ∀ expires ∈ fromisoformat text,
    expires.offset.isSome = current.offset.isSome)

/-- The claim acquired the operation and its token is the stored one. -/
def Acquires (outcome : Except Raised (StoredOperation × Bool) × Operations)
    (recoveryId claimToken : String) : Prop :=
  ∃ row, outcome.1 = .ok (row, true) ∧ row.claimToken = some claimToken ∧
    outcome.2.lookup recoveryId = some row

variable {fromisoformat} {current : DateTime} {operations : Operations}

/-- A lease that is over is found stale and can be compared with itself exactly
when it is takeable. -/
theorem isStale_iff_isTakeable {lease : Option String}
    (hover : IsOver fromisoformat current lease) :
    isStale fromisoformat current lease = .ok true ∧ lease.isSome ↔
      IsTakeable fromisoformat current lease := by
  cases lease with
  | none => simp [IsTakeable]
  | some text =>
      have htakeable : IsTakeable fromisoformat current (some text) ↔
          (text ≠ "" → ∀ expires ∈ fromisoformat text,
            expires.offset.isSome = current.offset.isSome) := by
        simp [IsTakeable]
      rw [htakeable, isStale]
      by_cases htext : text = ""
      · simp [htext]
      · cases hexpires : fromisoformat text with
        | none => simp [htext]
        | some expires =>
            have hpassed : expires.instant ≤ current.instant := hover text rfl expires hexpires
            by_cases hordered : expires.offset.isSome = current.offset.isSome
            · simp [htext, le?, hordered, hpassed]
            · simp [htext, le?, hordered]

/-- The `UPDATE` finds the row that was read unless its lease is `NULL`. -/
theorem isGuarded_self {read : StoredOperation} (hclaimed : read.state = "CLAIMED") :
    isGuarded read read = read.leaseExpiresAt.isSome := by
  rw [isGuarded]
  cases read.leaseExpiresAt <;> simp [sqlEqual, hclaimed]

/-- The transaction on a claimed row: it is taken over if it is found stale and
has a lease at all. -/
theorem transaction_of_claimed {claim : Claim} {read : StoredOperation}
    (hread : operations.lookup claim.recoveryId = some read)
    (hclaimed : read.state = "CLAIMED") :
    transaction fromisoformat claim operations =
      (isStale fromisoformat claim.currentTime read.leaseExpiresAt).map fun stale =>
        if stale && read.leaseExpiresAt.isSome then
          (true, operations.modify claim.recoveryId claim.values claim.values_recoveryId
            claim.values_attemptId)
        else (false, operations) := by
  rw [transaction, hread]
  dsimp only
  rw [if_pos hclaimed]
  cases hstale : isStale fromisoformat claim.currentTime read.leaseExpiresAt with
  | error error => rfl
  | ok stale =>
      cases stale with
      | false => rfl
      | true =>
          have hguarded : (operations.lookup claim.recoveryId).any (isGuarded read) =
              read.leaseExpiresAt.isSome := by
            rw [hread, Option.any_some, isGuarded_self hclaimed]
          simp only [Except.map, Table.updateWhere, hguarded, Bool.true_and]
          rfl

theorem acquires_claimOperation (claim : Claim) {read : StoredOperation}
    (hread : operations.lookup claim.recoveryId = some read)
    (hclaimed : read.state = "CLAIMED")
    (hover : IsOver fromisoformat claim.currentTime read.leaseExpiresAt) :
    Acquires (claimOperation fromisoformat claim operations) claim.recoveryId
        claim.claimToken ↔
      IsTakeable fromisoformat claim.currentTime read.leaseExpiresAt := by
  rw [claimOperation, transaction_of_claimed hread hclaimed, ← isStale_iff_isTakeable hover]
  cases hstale : isStale fromisoformat claim.currentTime read.leaseExpiresAt with
  | error error => simp [Acquires, Except.map]
  | ok stale =>
      cases htaken : stale && read.leaseExpiresAt.isSome with
      | false =>
          rw [Bool.and_eq_false_iff] at htaken
          rcases htaken with rfl | hmissing
          · simp [Acquires, Except.map, hread]
          · simp [Acquires, Except.map, hread, hmissing]
      | true =>
          rw [Bool.and_eq_true] at htaken
          simp [Acquires, Except.map, hread, htaken, Table.lookup_modify_self,
            Claim.values]

/-- A claim of a stored operation in state `CLAIMED` whose lease is over acquires
it exactly when the lease is not `NULL`, has an order with the current time if
it can be read, and the new lease ends before the year 10000. -/
theorem acquires_iff {clock : DateTime} {review : RecoveryReview} {now : Option DateTime}
    {uuid : String} {read : StoredOperation} (hsafe : review.decision = .safeToRetry)
    (hread : operations.lookup review.recoveryId = some read)
    (hclaimed : read.state = "CLAIMED")
    (hover : IsOver fromisoformat (now.getD clock) read.leaseExpiresAt) :
    Acquires (claimRetry fromisoformat clock review now uuid operations) review.recoveryId
        ("claim_" ++ uuid) ↔
      (addSeconds? (now.getD clock) ExecutionRecoveryStore.claimLeaseSeconds).isSome ∧
        IsTakeable fromisoformat (now.getD clock) read.leaseExpiresAt := by
  rw [claimRetry, if_neg (not_not.mpr hsafe)]
  generalize addSeconds? (now.getD clock) ExecutionRecoveryStore.claimLeaseSeconds = ends
  cases ends with
  | none => simp [Acquires]
  | some leaseExpiresAt =>
      have hacquires := acquires_claimOperation ⟨review.recoveryId, review.attemptId,
        now.getD clock, leaseExpiresAt, "claim_" ++ uuid⟩ hread hclaimed hover
      simpa using hacquires

/-! ## Sample rows -/

def newYear : DateTime where
  date := ⟨2026, 1, 1, Date.year_range_2026, by decide, by decide⟩
  clock := midnight
  offset := some .utc
  in_range := inRange_midnight

def review : RecoveryReview where
  recoveryId := "recovery_1"
  attemptId := "attempt_1"
  taskId := "task-1"
  idempotencyKey := "key-1"
  decision := .safeToRetry
  verifierId := "verifier-1"
  outcomeId := "outcome-1"
  reviewedAt := 0

/-- A claimed operation. -/
def claimedWith (claimToken leaseExpiresAt : Option String) : StoredOperation where
  recoveryId := "recovery_1"
  attemptId := "attempt_1"
  operationKey := "retry_recovery_1"
  state := "CLAIMED"
  retryGrantId := "retry-grant_recovery_1"
  retryAttemptId := none
  createdAt := newYear.isoText
  updatedAt := newYear.isoText
  claimToken := claimToken
  leaseExpiresAt := leaseExpiresAt

def tableOf (operation : StoredOperation) : Operations :=
  ⟨[operation], List.nodup_singleton _, List.nodup_singleton _⟩

def readText (text : String) : Option DateTime := DateTime.fromisoformat text.toList

theorem acquires_passed :
    Acquires (claimRetry readText newYear review none "b"
      (tableOf (claimedWith (some "claim_a") (some newYear.isoText)))) "recovery_1"
        "claim_b" := by
  have hreads : readText newYear.isoText = some newYear := by
    rw [readText, DateTime.isoText, String.toList_ofList]
    exact DateTime.fromisoformat_isoformat newYear
  have hends : (addSeconds? newYear ExecutionRecoveryStore.claimLeaseSeconds).isSome = true := by
    decide +kernel
  have hover : IsOver readText newYear (some newYear.isoText) := by
    simp [IsOver, hreads]
  have htakeable : IsTakeable readText newYear (some newYear.isoText) := by
    simp [IsTakeable, hreads]
  have hread : (tableOf (claimedWith (some "claim_a") (some newYear.isoText))).lookup
      review.recoveryId = some (claimedWith (some "claim_a") (some newYear.isoText)) := rfl
  have hacquires : Acquires (claimRetry readText newYear review none "b" _) _ _ ↔ _ :=
    acquires_iff rfl hread rfl hover
  exact hacquires.mpr ⟨hends, htakeable⟩

/-- A row from before the lease column stays with its claimant for ever. -/
theorem not_acquires_null :
    IsOver readText newYear none ∧
      ¬Acquires (claimRetry readText newYear review none "b"
        (tableOf (claimedWith none none))) "recovery_1" "claim_b" := by
  have hover : IsOver readText newYear none := by simp [IsOver]
  refine ⟨hover, ?_⟩
  obtain ⟨ends, hends⟩ : ∃ ends,
      addSeconds? newYear ExecutionRecoveryStore.claimLeaseSeconds = some ends := by
    rw [← Option.isSome_iff_exists]
    decide +kernel
  have hoperation : claimRetry readText newYear review none "b"
      (tableOf (claimedWith none none)) =
        claimOperation readText ⟨"recovery_1", "attempt_1", newYear, ends, "claim_" ++ "b"⟩
          (tableOf (claimedWith none none)) := by
    rw [claimRetry, if_neg (by decide), Option.getD_none, hends]
    rfl
  rw [hoperation]
  intro hacquires
  obtain ⟨text, htext, -⟩ := (acquires_claimOperation ⟨"recovery_1", "attempt_1", newYear,
    ends, "claim_" ++ "b"⟩ rfl rfl hover).mp hacquires
  cases htext

end AegisForge.Shared.RetryTakeover
