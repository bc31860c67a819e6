import AegisForge.Concurrency.Safety
import AegisForge.Shared.Effects
import AegisForge.Shared.ExecutionSystem

/-!
# Fencing of retry claims

`update_retry_operation` compares the caller's token with the row that it read
and then updates a row that is guarded by its state alone.  The token fences
the update as long as nobody takes the operation over in between.
-/

namespace AegisForge.Shared.RetryFencing

open AegisForge.Core AegisForge.Concurrency

/-! ## The condition on a run -/

/-- A claim took over the lease of the operation. -/
def isTakeover (recoveryId : String) (event : Event Statement World) : Bool :=
  match event.statement with
  | .claimOperation claim =>
      claim.recoveryId = recoveryId &&
        (event.found.operations.lookup recoveryId).any claim.takesOver
  | _ => false

/-- The call read the operation. -/
def isRead (process : ℕ) (event : Event Statement World) : Bool :=
  match event.statement with
  | .selectOperation _ => event.process = process
  | _ => false

/-- What was executed since the call last read an operation. -/
def sinceRead (process : ℕ) (trace : List (Event Statement World)) :
    List (Event Statement World) :=
  trace.takeWhile fun event => !isRead process event

/-- The operation that a statement updates. -/
def updated : Statement → Option String
  | .updateOperation change => some change.recoveryId
  | _ => none

/-- No operation is taken over between a call's reading it and updating it. -/
def notTakenOver : Schedule SystemCall Statement.Reply World Raised Answer where
  starts := fun _ _ => True
  permits := fun process statement history =>
    ((updated statement).all fun recoveryId =>
      !(sinceRead process history.trace).any (isTakeover recoveryId)) = true

instance (pool : SystemPool) (call : SystemCall) :
    Decidable (notTakenOver.starts pool call) :=
  inferInstanceAs (Decidable True)

instance (process : ℕ) (statement : Statement) (history : SystemHistory) :
    Decidable (notTakenOver.permits process statement history) :=
  inferInstanceAs (Decidable (_ = true))

/-! ## Authorizations -/

/-- The statement moves an operation from `CLAIMED` to `AUTHORIZED` while the
stored token is not `claimToken`. -/
def Unfenced (claimToken : Option String) (statement : Statement) (world : World) : Prop :=
  ∃ change row, statement = .updateOperation change ∧ change.newState = .authorized ∧
    world.operations.lookup change.recoveryId = some row ∧ row.state = .claimed ∧
      row.claimToken ≠ claimToken

/-- What the calls known as `calls` establish before they update an operation. -/
def Fences (calls : ℕ → Option SystemCall) (process : ℕ) (statement : Statement)
    (world : World) : Prop :=
  ∀ recoveryId state retryAttemptId now claimToken,
    calls process =
        some (.updateRetryOperation recoveryId state retryAttemptId now claimToken) →
      ¬Unfenced claimToken statement world

def Fenced (calls : ℕ → Option SystemCall) (history : SystemHistory) : Prop :=
  ∀ event ∈ history.trace, Fences calls event.process event.statement event.found

variable {calls : ℕ → Option SystemCall} {history later : SystemHistory} {process : ℕ}

theorem Fenced.record {statement : Statement} (hfenced : Fenced calls history)
    (hfences : Fences calls process statement history.store) :
    Fenced calls (history.record execute process statement) := by
  intro event hevent
  rcases List.mem_cons.mp hevent with rfl | hevent
  · exact hfences
  · exact hfenced event hevent

def rules (calls : ℕ → Option SystemCall) : Rules execute :=
  Rules.ofInvariant execute (Fenced calls) notTakenOver.permits
    (fun process statement history => Fences calls process statement history.store)
    fun hfenced _ hfences => hfenced.record hfences

/-! ## The row that a call has read -/

/-- Unless the operation was taken over since the call read it, a claimed row
still has the token that was read. -/
def Tracked (process : ℕ) (recoveryId : String) (claimToken : Option String)
    (history : SystemHistory) : Prop :=
  (sinceRead process history.trace).any (isTakeover recoveryId) = false →
    ∃ row, history.store.operations.lookup recoveryId = some row ∧
      (row.state = .claimed → row.claimToken = claimToken)

variable {recoveryId : String} {claimToken : Option String}

/-- Only a takeover gives another token to a claimed row. -/
theorem operationEffect_keeps_token {row : RetryOperation} {statement : Statement}
    {world : World} {other : ℕ}
    (hrow : world.operations.lookup recoveryId = some row)
    (hkept : isTakeover recoveryId ⟨other, statement, world⟩ = false)
    (htoken : row.state = .claimed → row.claimToken = claimToken)
    (hclaimed : (operationEffect recoveryId row statement).state = .claimed) :
    (operationEffect recoveryId row statement).claimToken = claimToken := by
  cases statement with
  | claimOperation claim =>
      by_cases hid : claim.recoveryId = recoveryId
      · have hnot : claim.takesOver row = false := by
          simpa [isTakeover, hid, hrow] using hkept
        have hsame : operationEffect recoveryId row (.claimOperation claim) = row := by
          simp [operationEffect, hid, RetryClaim.apply, hnot]
        rw [hsame] at hclaimed ⊢
        exact htoken hclaimed
      · have hsame : operationEffect recoveryId row (.claimOperation claim) = row := by
          simp [operationEffect, hid]
        rw [hsame] at hclaimed ⊢
        exact htoken hclaimed
  | updateOperation change =>
      have hnever : change.newState ≠ .claimed := by
        intro hnew
        have hallowed := change.allowed
        rw [hnew] at hallowed
        cases hexpected : change.expected <;> rw [hexpected] at hallowed <;>
          simp [RetryState.allowed] at hallowed
      by_cases happlies : change.recoveryId = recoveryId ∧ row.state = change.expected
      · have hstate : (operationEffect recoveryId row (.updateOperation change)).state =
            change.newState := by
          simp [operationEffect, happlies.1, RetryChange.apply, happlies.2,
            RetryChange.values]
        rw [hstate] at hclaimed
        exact absurd hclaimed hnever
      · have hsame : operationEffect recoveryId row (.updateOperation change) = row := by
          rw [operationEffect]
          split
          case isTrue hid => exact if_neg fun hstate => happlies ⟨hid, hstate⟩
          case isFalse => rfl
        rw [hsame] at hclaimed ⊢
        exact htoken hclaimed
  | _ => exact htoken hclaimed

theorem sinceRead_record {other : ℕ} {statement : Statement}
    (hread : isRead process ⟨other, statement, history.store⟩ = false) :
    sinceRead process (history.record execute other statement).trace =
      ⟨other, statement, history.store⟩ :: sinceRead process history.trace := by
  rw [sinceRead, History.record_trace, List.takeWhile_cons, if_pos (by simp [hread])]
  rfl

theorem Tracked.record {other : ℕ} {statement : Statement}
    (htracked : Tracked process recoveryId claimToken history)
    (hread : isRead process ⟨other, statement, history.store⟩ = false) :
    Tracked process recoveryId claimToken (history.record execute other statement) := by
  intro hkept
  rw [sinceRead_record hread, List.any_cons, Bool.or_eq_false_iff] at hkept
  obtain ⟨row, hrow, htoken⟩ := htracked hkept.2
  refine ⟨_, lookup_operations_execute hrow statement, ?_⟩
  exact operationEffect_keeps_token hrow hkept.1 htoken

theorem isRead_of_ne {other : ℕ} {statement : Statement} {world : World}
    (hne : other ≠ process) : isRead process ⟨other, statement, world⟩ = false := by
  cases statement <;> simp [isRead, hne]

theorem Tracked.rely (htracked : Tracked process recoveryId claimToken history)
    (hrely : (rules calls).rely process history later) :
    Tracked process recoveryId claimToken later :=
  Rules.stable_of_interferes (Tracked process recoveryId claimToken)
    (fun _ _ _ hne _ _ _ hlast => hlast.record (isRead_of_ne hne)) hrely htracked

/-- Reading the operation starts to track its token. -/
theorem tracked_read {row : RetryOperation}
    (hrow : history.store.operations.lookup recoveryId = some row) :
    Tracked process recoveryId row.claimToken
      (history.record execute process (.selectOperation recoveryId)) :=
  fun _ => ⟨row, hrow, fun _ => rfl⟩

/-! ## The calls -/

theorem fences_of_ne {statement : Statement} {world : World}
    (hstatement : ∀ change, statement ≠ .updateOperation change) :
    Fences calls process statement world := by
  rintro _ _ _ _ _ _ ⟨change, _, rfl, _⟩
  exact hstatement change rfl

theorem safe_clock (now : Option Time)
    (htracked : Tracked process recoveryId claimToken history) :
    (rules calls).Safe process (fun _ => Tracked process recoveryId claimToken)
      (fun _ _ => True) (currentTime now) history := by
  cases now with
  | some now => exact fun last hlast _ => htracked.rely hlast
  | none =>
      intro reading hrely _ _
      have hheld : Tracked process recoveryId claimToken
          (reading.record execute process .readClock) := (htracked.rely hrely).record rfl
      exact ⟨fences_of_ne nofun, fun last hlast _ => hheld.rely hlast⟩

/-- The check of a claim passes only with the token of the row that was read. -/
theorem safe_checkClaim {current : RetryOperation} (now : Option Time)
    (htracked : Tracked process recoveryId current.claimToken history)
    (hfenced : Fenced calls history) :
    (rules calls).Safe process (fun _ => Tracked process recoveryId claimToken)
      (fun _ _ => True) (ExecutionRecoveryStore.checkClaim current now claimToken)
      history := by
  apply Rules.Safe.raiseIf (fun _ _ _ _ => trivial)
  intro hmatches
  have hsame : claimToken = current.claimToken := by
    rw [not_or, not_not] at hmatches
    exact hmatches.2
  rw [← hsame] at htracked
  split
  · exact fun last hlast _ => htracked.rely hlast
  · apply (safe_clock now htracked).andThen _ (fun _ _ _ _ => trivial) hfenced
    intro point later _ htracked
    rw [Program.raiseIf]
    split
    · exact fun _ _ _ => trivial
    · exact fun last hlast _ => htracked.rely hlast
  · rw [Program.raiseIf]
    split
    · exact fun _ _ _ => trivial
    · exact fun last hlast _ => htracked.rely hlast

/-- The guarded update of a call, and what follows it. -/
theorem safe_write {state : RetryState} {retryAttemptId : Option String}
    {now : Option Time} (hcall : calls process =
      some (.updateRetryOperation recoveryId state retryAttemptId now claimToken))
    {current : RetryOperation} (hallowed : state ∈ current.state.allowed)
    (hready : state = .authorized → Tracked process recoveryId claimToken history)
    (updatedAt : Time) :
    (rules calls).Safe process (fun _ _ => True) (fun _ _ => True)
      ((send (.updateOperation {
        recoveryId := recoveryId
        expected := current.state
        newState := state
        allowed := hallowed
        retryAttemptId := retryAttemptId
        updatedAt := updatedAt })).bind fun written : Bool =>
          (Program.raiseIf (written = false) (ExecutionRecoveryStore.recoveryError
            "retry_operation_state_conflict")).bind fun _ =>
              ExecutionRecoveryStore.getRetryOperation recoveryId) history := by
  apply Rules.Safe.call
  intro updating hrely _ hpermits
  constructor
  · rintro _ _ _ _ _ hother ⟨change, row, hstatement, hnew, hrow, hclaimed, hne⟩
    rw [hcall] at hother
    cases hother
    cases hstatement
    have hquiet : (sinceRead process updating.trace).any (isTakeover recoveryId) = false :=
      Bool.not_eq_true' _ |>.mp hpermits
    obtain ⟨stored, hstored, htoken⟩ := (hready hnew).rely hrely hquiet
    rw [hrow] at hstored
    cases hstored
    exact hne (htoken hclaimed)
  · apply Rules.Safe.raiseIf (fun _ _ _ _ => trivial)
    intro _ reading _ _ _
    exact ⟨fences_of_ne nofun, fun _ _ _ => trivial⟩

theorem safe_update {state : RetryState} {retryAttemptId : Option String}
    {now : Option Time} (hcall : calls process =
      some (.updateRetryOperation recoveryId state retryAttemptId now claimToken)) :
    (rules calls).Safe process (fun _ _ => True) (fun _ _ => True)
      (ExecutionRecoveryStore.updateRetryOperation recoveryId state retryAttemptId now
        claimToken) history := by
  apply Rules.Safe.call
  intro reading _ hreading _
  have hquiet : Fences calls process (.selectOperation recoveryId) reading.store :=
    fences_of_ne nofun
  refine ⟨hquiet, ?_⟩
  have hrecorded : Fenced calls (reading.record execute process (.selectOperation recoveryId)) :=
    Fenced.record hreading hquiet
  have hreply : (execute (.selectOperation recoveryId) reading.store).1 =
      reading.store.operations.lookup recoveryId := rfl
  rw [hreply]
  cases hrow : reading.store.operations.lookup recoveryId with
  | none => exact fun _ _ _ => trivial
  | some current =>
      have htracked : Tracked process recoveryId current.claimToken
          (reading.record execute process (.selectOperation recoveryId)) := tracked_read hrow
      dsimp only
      split
      case isTrue =>
        apply Rules.Safe.raiseIf (fun _ _ _ _ => trivial)
        exact fun _ _ _ _ => trivial
      case isFalse =>
        split
        case isFalse => exact fun _ _ _ => trivial
        case isTrue hallowed =>
          apply Rules.Safe.raiseIf (fun _ _ _ _ => trivial)
          intro _
          split
          case isTrue =>
            apply (safe_checkClaim now htracked hrecorded).andThen _ (fun _ _ _ _ => trivial)
              hrecorded
            intro _ checked hchecked htracked
            apply (safe_clock now htracked).andThen _ (fun _ _ _ _ => trivial) hchecked
            intro updatedAt later _ htracked
            exact safe_write hcall hallowed (fun _ => htracked) updatedAt
          case isFalse hnotClaimed =>
            -- only a claimed operation can become authorized
            have hnever : state ≠ .authorized := by
              rintro rfl
              cases hstate : current.state <;>
                simp [hstate, RetryState.allowed] at hallowed hnotClaimed
            apply (safe_clock now htracked).andThen _ (fun _ _ _ _ => trivial) hrecorded
            intro updatedAt later _ _
            exact safe_write hcall hallowed (fun hstate => absurd hstate hnever) updatedAt

theorem safe_body {call : SystemCall} (hcall : calls process = some call)
    (hfenced : Fenced calls history) :
    (rules calls).Safe process (fun _ _ => True) (fun _ _ => True) call.body history := by
  by_cases hupdate : ∃ recoveryId state retryAttemptId now claimToken,
      call = .updateRetryOperation recoveryId state retryAttemptId now claimToken
  · obtain ⟨recoveryId, state, retryAttemptId, now, claimToken, rfl⟩ := hupdate
    apply (safe_update hcall).andThen _ (fun _ _ _ _ => trivial) hfenced
    exact fun _ _ _ _ _ _ _ => trivial
  · apply Rules.safe_of_within _ (Program.within_true call.body)
    intro statement last _ _ _ recoveryId state retryAttemptId now claimToken hother
    rw [hcall, Option.some.injEq] at hother
    exact absurd ⟨recoveryId, state, retryAttemptId, now, claimToken, hother⟩ hupdate

/-! ## Every interleaving -/

/-- A call authorized an operation with a token that was not the stored one. -/
def AuthorizesUnfenced (pool : SystemPool) : Prop :=
  ∃ event ∈ pool.history.trace, ∃ recoveryId state retryAttemptId now claimToken,
    pool.call? event.process =
        some (.updateRetryOperation recoveryId state retryAttemptId now claimToken) ∧
      Unfenced claimToken event.statement event.found

def review : RecoveryReview where
  recoveryId := "recovery_1"
  attemptId := "attempt_1"
  taskId := "task-1"
  idempotencyKey := "key-1"
  decision := .safeToRetry
  verifierId := "verifier-1"
  outcomeId := "outcome-1"
  reviewedAt := 0

/-- Two claimants, and the first one's authorization. -/
def claimants : List (Move SystemCall) :=
  [.start (.claimRetry review none "a"), .start (.claimRetry review none "b"),
    .start (.updateRetryOperation "recovery_1" .authorized none none (some "claim_a")),
    .start (.advanceClock (seconds 61))]

/-- The first claimant authorizes the operation before its lease is over. -/
def orderlyMoves : List (Move SystemCall) :=
  claimants ++ (Sample.advance 0 3 ++ Sample.advance 2 5 ++ Sample.advance 3 1 ++
    Sample.advance 1 3)

/-- The lease ends and is taken over when the first claimant has passed the
check of its token. -/
def supersededMoves : List (Move SystemCall) :=
  claimants ++ (Sample.advance 0 3 ++ Sample.advance 2 2 ++ Sample.advance 3 1 ++
    Sample.advance 1 3 ++ Sample.advance 2 3)

/-- Whether an event authorizes an operation whose stored token is another one. -/
def authorizesAgainst (claimToken : Option String) (event : Event Statement World) : Bool :=
  match event.statement with
  | .updateOperation change =>
      change.newState = .authorized &&
        (event.found.operations.lookup change.recoveryId).any fun row =>
          row.state = .claimed && row.claimToken ≠ claimToken
  | _ => false

theorem unfenced_of_authorizesAgainst {claimToken : Option String}
    {event : Event Statement World} (hauthorizes : authorizesAgainst claimToken event = true) :
    Unfenced claimToken event.statement event.found := by
  rw [authorizesAgainst] at hauthorizes
  split at hauthorizes
  case h_1 change hstatement =>
    simp only [Bool.and_eq_true, decide_eq_true_eq, Option.any_eq_true] at hauthorizes
    obtain ⟨hnew, row, hrow, hclaimed, htoken⟩ := hauthorizes
    exact ⟨change, row, hstatement, hnew, hrow, hclaimed, htoken⟩
  case h_2 => cases hauthorizes

end AegisForge.Shared.RetryFencing
