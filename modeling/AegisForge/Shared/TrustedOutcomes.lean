import Mathlib.Data.Finset.Card
import AegisForge.Shared.AuthorityEpochs

/-!
# Trusted outcomes

`trusted_outcomes` against the proofs behind it.  A machine remembers its last
proof alone and compares it with nothing, so the counter is the number of
trusted decisions since the last reset, in memory and through the registry.
-/

namespace AegisForge.Shared.TrustedOutcomes

open AegisForge.Core AegisForge.Concurrency AuthorityUpdates AuthorityEpochs
open AuthorityStateMachine (Operation recordAfter apply_cases)

/-- The proof of a trusted decision that `apply_trust` accepts. -/
def trustedProof : Operation → Option String
  | .applyTrust (some ⟨.trusted, proofId⟩) => if proofId = "" then none else some proofId
  | _ => none

def proofsAfter (proofs : List String) : Operation → List String
  | .governanceReset => []
  | operation => proofs ++ (trustedProof operation).toList

/-- The proofs of the trusted decisions since the last governance reset. -/
def proofsSinceReset (operations : List Operation) : List String :=
  operations.foldl proofsAfter []

/-- Every proof counts once: the counter is the number of distinct proofs, and
no policy promotes on fewer of them than it asks for. -/
def CountsProofs (record : AuthorityStateRecord) (proofs : List String) : Prop :=
  record.trustedOutcomes = proofs.toFinset.card ∧
    ∀ policy : AuthorityTransitionPolicy,
      policy.canGovernancePromoteElevated record.trustedOutcomes record.failedOutcomes →
        policy.minTrustedOutcomesForElevated ≤ proofs.toFinset.card

/-! ## The counter -/

/-- The record after an operation, which is the same one when it raised. -/
def recordStep (policy : AuthorityTransitionPolicy) (record : AuthorityStateRecord)
    (operation : Operation) : AuthorityStateRecord :=
  (recordAfter policy operation record).getD record

theorem trustedOutcomes_recordStep (policy : AuthorityTransitionPolicy)
    {record : AuthorityStateRecord} {proofs : List String}
    (hcount : record.trustedOutcomes = proofs.length) (operation : Operation) :
    (recordStep policy record operation).trustedOutcomes =
      (proofsAfter proofs operation).length := by
  rw [recordStep]
  cases operation with
  | governanceReset => rfl
  | suspend reason =>
      by_cases hreason : reason = "" <;>
        simp [recordAfter, AuthorityStateMachine.apply, AuthorityStateMachine.suspend,
          AuthorityStateMachine.enter, hreason, proofsAfter, trustedProof, hcount]
  | governancePromoteElevated reason proofId =>
      simp only [recordAfter, AuthorityStateMachine.apply,
        AuthorityStateMachine.governancePromoteElevated, proofsAfter, trustedProof,
        Option.toList_none, List.append_nil, ← hcount]
      split_ifs <;> rfl
  | applyTrust trustDecision =>
      cases trustDecision with
      | none => simp [recordAfter, AuthorityStateMachine.apply,
          AuthorityStateMachine.applyTrust, proofsAfter, trustedProof, hcount]
      | some decision =>
          obtain ⟨status, proofId⟩ := decision
          by_cases hproof : proofId = "" <;> cases status <;>
            simp [recordAfter, AuthorityStateMachine.apply,
              AuthorityStateMachine.applyTrust, AuthorityStateMachine.enter, hproof,
              proofsAfter, trustedProof, hcount]

theorem countsProofs_iff_of_count {record : AuthorityStateRecord} {proofs : List String}
    (hcount : record.trustedOutcomes = proofs.length) :
    CountsProofs record proofs ↔ proofs.Nodup := by
  have hdistinct : proofs.toFinset.card = proofs.length ↔ proofs.Nodup :=
    Multiset.toFinset_card_eq_card_iff_nodup
  rw [CountsProofs, ← hdistinct, hcount]
  constructor
  · exact fun hcounts => hcounts.1.symm
  · intro hcard
    refine ⟨hcard.symm, fun policy hallowed => ?_⟩
    simp only [AuthorityTransitionPolicy.canGovernancePromoteElevated, Bool.and_eq_true,
      decide_eq_true_eq] at hallowed
    exact hcard ▸ hallowed.1.2

/-! ## Runs -/

theorem record_step (machine : AuthorityStateMachine) (operation : Operation) :
    (machine.step operation).record =
      recordStep machine.transitionPolicy machine.record operation := by
  rw [AuthorityStateMachine.step, recordStep]
  rcases apply_cases machine operation with
    ⟨transition, after, happly, -, hafter⟩ | ⟨error, herror, hafter⟩
  · rw [happly, hafter]
    rfl
  · rw [herror, hafter]
    rfl

theorem trustedOutcomes_steps (operations : List Operation)
    {machine : AuthorityStateMachine} {proofs : List String}
    (hcount : machine.record.trustedOutcomes = proofs.length) :
    (machine.steps operations).record.trustedOutcomes =
      (operations.foldl proofsAfter proofs).length := by
  induction operations generalizing machine proofs with
  | nil => exact hcount
  | cons operation operations ih =>
      apply ih
      rw [record_step]
      exact trustedOutcomes_recordStep machine.transitionPolicy hcount operation

/-- A call that runs alone makes its operation on the stored record. -/
theorem record_contextAfter (call : AuthorityCall) (before : Context) :
    (contextAfter call before).record =
      (operationOf call).toList.foldl (recordStep (registryOf call).transitionPolicy)
        before.record := by
  have hrewritten : ∀ (policy : AuthorityTransitionPolicy) (operation : Operation)
      (advances : AuthorityState → AuthorityState → Bool),
      (rewritten policy operation advances before).record =
        recordStep policy before.record operation := by
    intro policy operation advances
    rw [rewritten, recordStep]
    cases recordAfter policy operation before.record <;> rfl
  cases call with
  | register registry policyVersion => rfl
  | recordTrust registry trustDecision => exact hrewritten _ _ _
  | governancePromoteElevated registry reason proofId => exact hrewritten _ _ _
  | suspend registry reason => exact hrewritten _ _ _
  | governanceReset registry reason =>
      by_cases hreason : reason = ""
      · simp [contextAfter, operationOf, hreason]
      · rw [contextAfter, operationOf, if_neg hreason, if_neg hreason]
        exact hrewritten _ _ _
  | rotatePolicy registry policyVersion =>
      rw [contextAfter]
      split <;> rfl

theorem trustedOutcomes_contextsAfter (calls : List AuthorityCall) {before : Context}
    {proofs : List String} (hcount : before.record.trustedOutcomes = proofs.length) :
    (contextsAfter calls before).record.trustedOutcomes =
      ((calls.filterMap operationOf).foldl proofsAfter proofs).length := by
  induction calls generalizing before proofs with
  | nil => exact hcount
  | cons call calls ih =>
      have hrecord := record_contextAfter call before
      cases hoperation : operationOf call with
      | none =>
          rw [List.filterMap_cons_none hoperation]
          apply ih
          rw [hrecord, hoperation]
          exact hcount
      | some operation =>
          rw [List.filterMap_cons_some hoperation]
          apply ih
          rw [hrecord, hoperation]
          exact trustedOutcomes_recordStep _ hcount operation

/-- Between resets every proof counts once exactly when no trusted decision
comes with a proof that an earlier one had: on a machine in memory, and through
the registry, which saves and reloads it with every call. -/
theorem countsProofs_iff {registry : AgentAuthorityRegistry} {agentId : String}
    {policyVersion : Option String} {authority : AgentAuthority} {world start : World}
    {policy : AuthorityTransitionPolicy} {machine : AuthorityStateMachine}
    (hnew : AuthorityStateMachine.new agentId policy = .ok machine)
    (hfresh : world.registry.lookup agentId = none)
    (hregister : (registry.register agentId policyVersion).run execute world =
      (.ok authority, start)) :
    (∀ operations, CountsProofs (machine.steps operations).record
        (proofsSinceReset operations) ↔ (proofsSinceReset operations).Nodup) ∧
    ∀ calls, ∃ current, context agentId (afterCalls agentId calls start) = some current ∧
      (CountsProofs current.record (proofsSinceReset (calls.filterMap operationOf)) ↔
        (proofsSinceReset (calls.filterMap operationOf)).Nodup) := by
  obtain ⟨hagent, first, hfirst, hrecord⟩ := context_of_register hfresh hregister
  constructor
  · intro operations
    apply countsProofs_iff_of_count
    apply trustedOutcomes_steps
    rw [AuthorityStateMachine.new, if_neg hagent] at hnew
    cases hnew
    rfl
  · intro calls
    refine ⟨_, context_afterCalls hagent calls hfirst, ?_⟩
    apply countsProofs_iff_of_count
    apply trustedOutcomes_contextsAfter
    rw [hrecord]
    rfl

/-- Two trusted outcomes with a suspension between them. -/
def distinctProofs : List AuthorityCall :=
  [.recordTrust {} (some ⟨.trusted, "proof-1"⟩), .suspend {} "incident",
    .recordTrust {} (some ⟨.trusted, "proof-2"⟩)]

theorem countsProofs_distinctProofs :
    ∃ current, context "agent-1" (afterCalls "agent-1" distinctProofs Sample.world) =
      some current ∧ CountsProofs current.record ["proof-1", "proof-2"] := by
  obtain ⟨authority, hregister⟩ := register_sample
  have hnew : AuthorityStateMachine.new "agent-1" .default =
      .ok ⟨{ agentId := "agent-1" }, [], .default⟩ := rfl
  obtain ⟨current, hcurrent, hcounts⟩ :=
    (countsProofs_iff hnew rfl hregister).2 distinctProofs
  exact ⟨current, hcurrent, hcounts.mpr (by decide)⟩

/-- One trusted proof, recorded three times. -/
def repeatedProof : List AuthorityCall :=
  List.replicate 3 (.recordTrust {} (some ⟨.trusted, "proof-1"⟩))

/-- The counter stands at three for one proof, and the agent is promoted. -/
theorem not_countsProofs_repeatedProof :
    (∃ current, context "agent-1" (afterCalls "agent-1" repeatedProof Sample.world) =
      some current ∧
        ¬CountsProofs current.record
          (proofsSinceReset (repeatedProof.filterMap operationOf))) ∧
    ∃ promoted, context "agent-1" (afterCalls "agent-1"
      (repeatedProof ++ [.governancePromoteElevated {} "earned" ""]) Sample.world) =
        some promoted ∧ promoted.record.state = .elevated := by
  have hcount : (context "agent-1" (afterCalls "agent-1" repeatedProof Sample.world)).map
      (fun current => current.record.trustedOutcomes) = some 3 := by decide +kernel
  have hstate : (context "agent-1" (afterCalls "agent-1"
      (repeatedProof ++ [.governancePromoteElevated {} "earned" ""]) Sample.world)).map
        (fun current => current.record.state) = some .elevated := by decide +kernel
  obtain ⟨current, hcurrent, hthree⟩ := Option.map_eq_some_iff.mp hcount
  obtain ⟨promoted, hpromoted, helevated⟩ := Option.map_eq_some_iff.mp hstate
  refine ⟨⟨current, hcurrent, fun hcounts => ?_⟩, promoted, hpromoted, helevated⟩
  have hone : (proofsSinceReset (repeatedProof.filterMap operationOf)).toFinset.card = 1 := by
    decide
  rw [CountsProofs, hone, hthree] at hcounts
  exact absurd hcounts.1 (by decide)

end AegisForge.Shared.TrustedOutcomes
