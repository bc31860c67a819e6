import AegisForge.Shared.Database

/-!
# What one statement does to one row

Each lemma says for one table all that any statement can do to the row of one
key.  Invariants over whole interleavings are derived from these cases.
-/

namespace AegisForge.Shared

open AegisForge.Core AegisForge.Concurrency

variable {statement : Statement} {world : World}

/-! ## Authority -/

/-- What a statement does to the registry row of `agentId`. -/
def registryEffect (agentId : String) (row : Option AuthorityRegistryRow) :
    Statement → Option AuthorityRegistryRow
  | .insertRegistryRow wanted policyVersion =>
      if wanted = agentId then row.or (some ⟨wanted, policyVersion, 1⟩) else row
  | .incrementEpoch wanted =>
      if wanted = agentId then row.map AuthorityRegistryRow.nextEpoch else row
  | .updatePolicyVersion wanted policyVersion =>
      if wanted = agentId then
        row.map (AuthorityRegistryRow.rotate policyVersion)
      else row
  | _ => row

theorem lookup_registry_execute (agentId : String) (statement : Statement) (world : World) :
    (execute statement world).2.registry.lookup agentId =
      registryEffect agentId (world.registry.lookup agentId) statement := by
  cases statement with
  | insertRegistryRow wanted policyVersion =>
      simp only [execute, registryEffect]
      split
      case h_1 after hinsert =>
        rw [Table.lookup_insert? hinsert]
        obtain ⟨hfresh, -, -⟩ := Table.insert?_eq_some_iff.mp hinsert
        by_cases hwanted : wanted = agentId
        · subst hwanted
          rw [if_pos rfl, if_pos rfl]
          rw [hfresh]
          rfl
        · rw [if_neg hwanted, if_neg hwanted]
      case h_2 hinsert =>
        by_cases hwanted : wanted = agentId
        · subst hwanted
          have htaken := Table.lookup_isSome_of_insert?_eq_none hinsert fun _ heq => heq
          rw [if_pos rfl]
          cases hlookup : world.registry.lookup wanted with
          | none => simp [hlookup] at htaken
          | some row => rfl
        · rw [if_neg hwanted]
  | incrementEpoch wanted =>
      simp only [execute, registryEffect]
      rw [Table.lookup_modify]
      by_cases hwanted : wanted = agentId
      · rw [if_pos hwanted, if_pos hwanted.symm, hwanted]
      · rw [if_neg hwanted, if_neg (Ne.symm hwanted)]
  | updatePolicyVersion wanted policyVersion =>
      simp only [execute, registryEffect]
      rw [Table.lookup_modify]
      by_cases hwanted : wanted = agentId
      · rw [if_pos hwanted, if_pos hwanted.symm, hwanted]
      · rw [if_neg hwanted, if_neg (Ne.symm hwanted)]
  | insertGrant _ | insertConsumption _ | insertAttempt _ | insertReview _
  | claimOperation _ | insertEvidence _ =>
      simp only [execute, registryEffect]
      repeat' split
      all_goals rfl
  | _ => rfl

/-- The registry row is inserted exactly when the agent has none. -/
theorem insertRegistryRow_reply (agentId policyVersion : String) (world : World) :
    (execute (.insertRegistryRow agentId policyVersion) world).1 =
      (world.registry.lookup agentId).isNone := by
  simp only [execute]
  split
  case h_1 after hinsert =>
    obtain ⟨hfresh, -, -⟩ := Table.insert?_eq_some_iff.mp hinsert
    exact (Option.isNone_iff_eq_none.mpr hfresh).symm
  case h_2 hinsert =>
    have htaken := Table.lookup_isSome_of_insert?_eq_none hinsert fun _ heq => heq
    cases hlookup : world.registry.lookup agentId with
    | none => simp [hlookup] at htaken
    | some row => rfl

theorem lookup_upsertAuthority
    (table : Table AuthorityStateRecord.agentId AuthorityStateRecord.agentId)
    (record : AuthorityStateRecord) (agentId : String) :
    (upsertAuthority table record).lookup agentId =
      if record.agentId = agentId then some record else table.lookup agentId := by
  rw [upsertAuthority]
  split
  case h_1 after hinsert => exact Table.lookup_insert? hinsert agentId
  case h_2 hinsert =>
    have htaken := Table.lookup_isSome_of_insert?_eq_none hinsert fun _ heq => heq
    rw [Table.lookup_modify]
    by_cases hagent : record.agentId = agentId
    · subst hagent
      rw [if_pos rfl, if_pos rfl]
      cases hlookup : table.lookup record.agentId with
      | none => simp [hlookup] at htaken
      | some row =>
          rw [Option.map_some, AuthorityStateRecord.replace, Table.key_of_lookup hlookup]
    · rw [if_neg hagent, if_neg (Ne.symm hagent)]

/-- What a statement does to the stored record of `agentId`. -/
def authorityEffect (agentId : String) (record : Option AuthorityStateRecord) :
    Statement → Option AuthorityStateRecord
  | .saveAuthority saved _ => if saved.agentId = agentId then some saved else record
  | _ => record

theorem lookup_authority_execute (agentId : String) (statement : Statement)
    (world : World) :
    (execute statement world).2.authority.lookup agentId =
      authorityEffect agentId (world.authority.lookup agentId) statement := by
  cases statement with
  | saveAuthority record history =>
      exact lookup_upsertAuthority world.authority record agentId
  | insertRegistryRow _ _ | insertGrant _ | insertConsumption _ | insertAttempt _
  | insertReview _ | claimOperation _ | insertEvidence _ =>
      simp only [execute, authorityEffect]
      repeat' split
      all_goals rfl
  | _ => rfl

/-! ## Rows that exist -/

/-- What a statement does to the grant row of `grantId`. -/
def grantEffect (grantId : String) (row : GrantRow) : Statement → GrantRow
  | .revokeGrant wanted => if wanted = grantId then row.finish .revoked else row
  | .consumeGrant wanted => if wanted = grantId then row.finish .consumed else row
  | _ => row

theorem lookup_finishGrant (table : Table GrantRow.grantId GrantRow.nonce)
    (wanted : String) (status : GrantStatus) (grantId : String) :
    (finishGrant table wanted status).lookup grantId =
      (table.lookup grantId).map fun row =>
        if wanted = grantId then row.finish status else row := by
  rw [finishGrant, Table.lookup_modify]
  by_cases hwanted : wanted = grantId
  · subst hwanted
    simp
  · simp [hwanted, Ne.symm hwanted]

theorem lookup_grants_execute {grantId : String} {row : GrantRow}
    (hrow : world.grants.lookup grantId = some row) (statement : Statement) :
    (execute statement world).2.grants.lookup grantId =
      some (grantEffect grantId row statement) := by
  cases statement with
  | insertGrant payload =>
      simp only [execute, grantEffect]
      split
      case h_1 after hinsert =>
        obtain ⟨hfresh, -, -⟩ := Table.insert?_eq_some_iff.mp hinsert
        rw [Table.lookup_insert? hinsert, if_neg ?_]
        · exact hrow
        · intro hsame
          rw [hsame, hrow] at hfresh
          cases hfresh
      case h_2 => exact hrow
  | revokeGrant wanted => simp [execute, grantEffect, lookup_finishGrant, hrow]
  | consumeGrant wanted => simp [execute, grantEffect, lookup_finishGrant, hrow]
  | insertRegistryRow _ _ | insertConsumption _ | insertAttempt _ | insertReview _
  | claimOperation _ | insertEvidence _ =>
      simp only [execute, grantEffect]
      repeat' split
      all_goals exact hrow
  | _ => exact hrow

/-- A grant that is no longer active never changes again. -/
theorem grantEffect_of_finished {grantId : String} {row : GrantRow}
    (hfinished : row.status ≠ .active) (statement : Statement) :
    grantEffect grantId row statement = row := by
  have hfinish : ∀ status, row.finish status = row := fun status => if_neg hfinished
  cases statement <;> simp [grantEffect, hfinish]

/-- What a statement does to the attempt row of `attemptId`. -/
def attemptEffect (attemptId : String) (row : ExecutionAttempt) :
    Statement → ExecutionAttempt
  | .updateAttempt change => if change.attemptId = attemptId then change.apply row else row
  | _ => row

theorem lookup_attempts_execute {attemptId : String} {row : ExecutionAttempt}
    (hrow : world.attempts.lookup attemptId = some row) (statement : Statement) :
    (execute statement world).2.attempts.lookup attemptId =
      some (attemptEffect attemptId row statement) := by
  cases statement with
  | insertAttempt attempt =>
      simp only [execute, attemptEffect]
      split
      case h_1 after hinsert =>
        obtain ⟨hfresh, -, -⟩ := Table.insert?_eq_some_iff.mp hinsert
        rw [Table.lookup_insert? hinsert, if_neg ?_]
        · exact hrow
        · intro hsame
          rw [hsame, hrow] at hfresh
          cases hfresh
      case h_2 => split <;> exact hrow
  | updateAttempt change =>
      simp only [execute, attemptEffect]
      rw [Table.lookup_modify]
      by_cases hwanted : change.attemptId = attemptId
      · simp [hwanted, hrow]
      · simp [hwanted, Ne.symm hwanted, hrow]
  | insertRegistryRow _ _ | insertGrant _ | insertConsumption _ | insertReview _
  | claimOperation _ | insertEvidence _ =>
      simp only [execute, attemptEffect]
      repeat' split
      all_goals exact hrow
  | _ => exact hrow

/-- A terminal attempt never changes again. -/
theorem attemptEffect_of_terminal {attemptId : String} {row : ExecutionAttempt}
    (hterminal : row.state ∈ ExecutionAttemptState.terminal) (statement : Statement) :
    attemptEffect attemptId row statement = row := by
  cases statement <;> simp [attemptEffect, AttemptChange.apply_of_terminal, hterminal]

theorem attemptEffect_keyNumber (attemptId : String) (row : ExecutionAttempt)
    (statement : Statement) :
    (attemptEffect attemptId row statement).keyNumber = row.keyNumber := by
  cases statement with
  | updateAttempt change =>
      rw [attemptEffect]
      split
      · exact change.apply_keyNumber row
      · rfl
  | _ => rfl

/-- A statement keeps the state of an attempt or moves it along an allowed
transition. -/
theorem attemptEffect_state (attemptId : String) (row : ExecutionAttempt)
    (statement : Statement) :
    (attemptEffect attemptId row statement).state = row.state ∨
      (attemptEffect attemptId row statement).state ∈ row.state.allowed := by
  cases statement with
  | updateAttempt change =>
      rw [attemptEffect]
      split
      case isTrue =>
        rw [AttemptChange.apply]
        split
        case isTrue hexpected =>
          right
          rw [hexpected]
          exact change.allowed
        case isFalse => exact Or.inl rfl
      case isFalse => exact Or.inl rfl
  | _ => exact Or.inl rfl

theorem attempts_execute (hinsert : ∀ attempt, statement ≠ .insertAttempt attempt)
    (hupdate : ∀ change, statement ≠ .updateAttempt change) (world : World) :
    (execute statement world).2.attempts = world.attempts := by
  cases statement with
  | insertAttempt attempt => exact absurd rfl (hinsert attempt)
  | updateAttempt change => exact absurd rfl (hupdate change)
  | insertRegistryRow _ _ | insertGrant _ | insertConsumption _ | insertReview _
  | claimOperation _ | insertEvidence _ =>
      simp only [execute]
      repeat' split
      all_goals rfl
  | _ => rfl

/-- An attempt comes into the table by its `INSERT`. -/
theorem insertAttempt_of_lookup {attemptId : String} {row : ExecutionAttempt}
    (hnone : world.attempts.lookup attemptId = none)
    (hrow : (execute statement world).2.attempts.lookup attemptId = some row) :
    ∃ attempt, statement = .insertAttempt attempt ∧ row = attempt.row := by
  by_cases hinsert : ∃ attempt, statement = .insertAttempt attempt
  · obtain ⟨attempt, rfl⟩ := hinsert
    refine ⟨attempt, rfl, ?_⟩
    simp only [execute] at hrow
    split at hrow
    case h_1 after hinsert =>
      rw [Table.lookup_insert? hinsert, hnone] at hrow
      split at hrow
      · exact (Option.some.inj hrow).symm
      · cases hrow
    case h_2 =>
      have hold : world.attempts.lookup attemptId = some row := by
        split at hrow <;> exact hrow
      rw [hnone] at hold
      cases hold
  · exfalso
    by_cases hupdate : ∃ change, statement = .updateAttempt change
    · obtain ⟨change, rfl⟩ := hupdate
      simp only [execute] at hrow
      rw [Table.lookup_modify, hnone] at hrow
      split at hrow
      case isTrue hsame =>
        rw [← hsame, hnone] at hrow
        cases hrow
      case isFalse => cases hrow
    · have hsame := attempts_execute (fun attempt hattempt => hinsert ⟨attempt, hattempt⟩)
        (fun change hchange => hupdate ⟨change, hchange⟩)
      rw [hsame world, hnone] at hrow
      cases hrow

/-- What a statement does to the review of `recoveryId`. -/
def reviewEffect (recoveryId : String) (row : RecoveryReview) : Statement → RecoveryReview
  | .resolveReview resolution =>
      if resolution.recoveryId = recoveryId then resolution.apply row else row
  | _ => row

theorem lookup_reviews_execute {recoveryId : String} {row : RecoveryReview}
    (hrow : world.reviews.lookup recoveryId = some row) (statement : Statement) :
    (execute statement world).2.reviews.lookup recoveryId =
      some (reviewEffect recoveryId row statement) := by
  cases statement with
  | insertReview review =>
      simp only [execute, reviewEffect]
      split
      case h_1 after hinsert =>
        obtain ⟨hfresh, -, -⟩ := Table.insert?_eq_some_iff.mp hinsert
        rw [Table.lookup_insert? hinsert, if_neg ?_]
        · exact hrow
        · intro hsame
          rw [hsame, hrow] at hfresh
          cases hfresh
      case h_2 => exact hrow
  | resolveReview resolution =>
      simp only [execute, reviewEffect]
      rw [Table.lookup_modify]
      by_cases hwanted : resolution.recoveryId = recoveryId
      · simp [hwanted, hrow]
      · simp [hwanted, Ne.symm hwanted, hrow]
  | insertRegistryRow _ _ | insertGrant _ | insertConsumption _ | insertAttempt _
  | claimOperation _ | insertEvidence _ =>
      simp only [execute, reviewEffect]
      repeat' split
      all_goals exact hrow
  | _ => exact hrow

theorem reviewEffect_attemptId (recoveryId : String) (row : RecoveryReview)
    (statement : Statement) :
    (reviewEffect recoveryId row statement).attemptId = row.attemptId := by
  cases statement with
  | resolveReview resolution =>
      rw [reviewEffect]
      split
      · exact resolution.apply_attemptId row
      · rfl
  | _ => rfl

/-- A decision is written once. -/
theorem reviewEffect_of_decided {recoveryId : String} {row : RecoveryReview}
    (hdecided : row.decision ≠ .unknown) (statement : Statement) :
    reviewEffect recoveryId row statement = row := by
  cases statement <;> simp [reviewEffect, Resolution.apply, hdecided]

/-- What a statement does to the retry operation of `recoveryId`. -/
def operationEffect (recoveryId : String) (row : RetryOperation) :
    Statement → RetryOperation
  | .claimOperation claim => if claim.recoveryId = recoveryId then claim.apply row else row
  | .updateOperation change =>
      if change.recoveryId = recoveryId then change.apply row else row
  | _ => row

theorem lookup_operations_execute {recoveryId : String} {row : RetryOperation}
    (hrow : world.operations.lookup recoveryId = some row) (statement : Statement) :
    (execute statement world).2.operations.lookup recoveryId =
      some (operationEffect recoveryId row statement) := by
  cases statement with
  | claimOperation claim =>
      simp only [execute, operationEffect]
      by_cases hwanted : claim.recoveryId = recoveryId
      · subst hwanted
        rw [hrow]
        simp [hrow]
      · rw [if_neg hwanted]
        split
        case h_1 =>
          split
          case h_1 after hinsert =>
            rw [Table.lookup_insert? hinsert]
            exact (if_neg hwanted).trans hrow
          case h_2 => exact hrow
        case h_2 =>
          rw [Table.lookup_modify, if_neg (Ne.symm hwanted)]
          exact hrow
  | updateOperation change =>
      simp only [execute, operationEffect]
      rw [Table.lookup_modify]
      by_cases hwanted : change.recoveryId = recoveryId
      · simp [hwanted, hrow]
      · simp [hwanted, Ne.symm hwanted, hrow]
  | insertRegistryRow _ _ | insertGrant _ | insertConsumption _ | insertAttempt _
  | insertReview _ | insertEvidence _ =>
      simp only [execute, operationEffect]
      repeat' split
      all_goals exact hrow
  | _ => exact hrow

end AegisForge.Shared
