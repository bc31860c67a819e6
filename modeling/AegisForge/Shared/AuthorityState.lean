import Mathlib.Data.Nat.Notation
import AegisForge.Shared.Exceptions

/-!
# Dynamic authority state

`AuthorityStateMachine` with the transition policy it consults.  An operation
either raises and leaves the machine as it was, or answers the transition it
appended to the history.
-/

namespace AegisForge.Shared

inductive AuthorityState
  | probation
  | limited
  | standard
  | elevated
  | suspended
  deriving DecidableEq, Repr

/-- `AuthorityTransitionPolicy`; the fields carry what `__post_init__` checks. -/
structure AuthorityTransitionPolicy where
  minTrustedOutcomesForElevated : ℕ := 3
  maxFailedOutcomesForElevated : ℕ := 0
  requireGovernanceForElevated : Bool := true
  trustedThreshold : 1 ≤ minTrustedOutcomesForElevated := by decide

namespace AuthorityTransitionPolicy

theorem default_trustedThreshold : 1 ≤ 3 := by decide

/-- The policy constructed without arguments. -/
def default : AuthorityTransitionPolicy where
  trustedThreshold := default_trustedThreshold

/-- The counters are arguments of the source too, and decide nothing. -/
def evaluateTrusted (_policy : AuthorityTransitionPolicy)
    (currentState : AuthorityState) (_trustedOutcomes _failedOutcomes : ℕ) :
    AuthorityState × String :=
  match currentState with
  | .suspended => (.suspended, "suspended_requires_governance_reset")
  | .elevated => (.elevated, "elevated_authority_requires_governance_change")
  | _ => (.standard, "trusted_attested_outcome")

def canGovernancePromoteElevated (policy : AuthorityTransitionPolicy)
    (trustedOutcomes failedOutcomes : ℕ) : Bool :=
  policy.requireGovernanceForElevated &&
    decide (policy.minTrustedOutcomesForElevated ≤ trustedOutcomes) &&
    decide (failedOutcomes ≤ policy.maxFailedOutcomesForElevated)

end AuthorityTransitionPolicy

structure AuthorityTransition where
  previousState : AuthorityState
  newState : AuthorityState
  reason : String
  proofId : String := ""
  agentId : String := ""
  deriving DecidableEq, Repr

structure AuthorityStateRecord where
  agentId : String
  state : AuthorityState := .probation
  trustedOutcomes : ℕ := 0
  failedOutcomes : ℕ := 0
  lastProofId : String := ""
  deriving DecidableEq, Repr

/-- What the registry answers about an agent: its record, the policy version
and the epoch of its authority. -/
structure AgentAuthority where
  agentId : String
  policyVersion : String
  state : AuthorityState
  trustedOutcomes : ℕ
  failedOutcomes : ℕ
  lastProofId : String
  authorityEpoch : ℕ
  deriving DecidableEq, Repr

/-- The value of `trust_decision.status`. -/
inductive TrustStatus
  | trusted
  | expired
  | untrusted
  | unknown
  deriving DecidableEq, Repr

structure TrustDecision where
  status : TrustStatus
  proofId : String := ""
  deriving DecidableEq, Repr

structure AuthorityStateMachine where
  record : AuthorityStateRecord
  history : List AuthorityTransition
  transitionPolicy : AuthorityTransitionPolicy

namespace AuthorityStateMachine

def authorityStateError (message : String) : Raised :=
  ⟨.authorityStateError, message⟩

def new (agentId : String) (policy : AuthorityTransitionPolicy) :
    Except Raised AuthorityStateMachine :=
  if agentId = "" then .error (authorityStateError "agent_id_required")
  else .ok { record := { agentId := agentId }, history := [], transitionPolicy := policy }

def state (machine : AuthorityStateMachine) : AuthorityState := machine.record.state

/-- Enter `newState` and append the transition to the history. -/
def enter (machine : AuthorityStateMachine) (record : AuthorityStateRecord)
    (newState : AuthorityState) (reason proofId : String) :
    AuthorityTransition × AuthorityStateMachine :=
  let transition : AuthorityTransition := {
    previousState := machine.record.state
    newState := newState
    reason := reason
    proofId := proofId
    agentId := machine.record.agentId }
  (transition, { machine with
    record := { record with state := newState }
    history := machine.history ++ [transition] })

def applyTrust (machine : AuthorityStateMachine) (trustDecision : Option TrustDecision) :
    Except Raised (AuthorityTransition × AuthorityStateMachine) :=
  match trustDecision with
  | none => .error (authorityStateError "trust_decision_required")
  | some decision =>
      if decision.proofId = "" then .error (authorityStateError "proof_id_required")
      else match decision.status with
        | .trusted =>
            let (newState, reason) :=
              machine.transitionPolicy.evaluateTrusted machine.record.state
                (machine.record.trustedOutcomes + 1) machine.record.failedOutcomes
            .ok (machine.enter { machine.record with
              trustedOutcomes := machine.record.trustedOutcomes + 1
              lastProofId := decision.proofId } newState reason decision.proofId)
        | .expired =>
            .ok (machine.enter { machine.record with
              lastProofId := decision.proofId } .limited "attestation_expired"
                decision.proofId)
        | .untrusted =>
            .ok (machine.enter { machine.record with
              failedOutcomes := machine.record.failedOutcomes + 1
              lastProofId := decision.proofId } .limited "untrusted_outcome"
                decision.proofId)
        | .unknown => .error (authorityStateError "unknown_trust_status")

def governancePromoteElevated (machine : AuthorityStateMachine)
    (reason proofId : String) :
    Except Raised (AuthorityTransition × AuthorityStateMachine) :=
  if reason = "" then .error (authorityStateError "promotion_reason_required")
  else if machine.record.state = .suspended then
    .error (authorityStateError "suspended_requires_governance_reset")
  else if machine.transitionPolicy.canGovernancePromoteElevated
      machine.record.trustedOutcomes machine.record.failedOutcomes then
    .ok (machine.enter { machine.record with
      lastProofId := if proofId = "" then machine.record.lastProofId else proofId }
        .elevated reason proofId)
  else .error (authorityStateError "elevated_conditions_not_met")

def suspend (machine : AuthorityStateMachine) (reason : String) :
    Except Raised (AuthorityTransition × AuthorityStateMachine) :=
  if reason = "" then .error (authorityStateError "suspension_reason_required")
  else .ok (machine.enter machine.record .suspended reason "")

def governanceReset (machine : AuthorityStateMachine) :
    AuthorityTransition × AuthorityStateMachine :=
  machine.enter { machine.record with
    trustedOutcomes := 0
    failedOutcomes := 0
    lastProofId := "" } .probation "governance_reset" ""

/-! ## Sequences of operations -/

inductive Operation
  | applyTrust (trustDecision : Option TrustDecision)
  | governancePromoteElevated (reason proofId : String)
  | suspend (reason : String)
  | governanceReset
  deriving DecidableEq, Repr

def apply (machine : AuthorityStateMachine) :
    Operation → Except Raised (AuthorityTransition × AuthorityStateMachine)
  | .applyTrust trustDecision => machine.applyTrust trustDecision
  | .governancePromoteElevated reason proofId =>
      machine.governancePromoteElevated reason proofId
  | .suspend reason => machine.suspend reason
  | .governanceReset => .ok machine.governanceReset

/-- The machine after an operation, which is the same one when it raised. -/
def step (machine : AuthorityStateMachine) (operation : Operation) :
    AuthorityStateMachine :=
  match machine.apply operation with
  | .ok (_, after) => after
  | .error _ => machine

def steps (machine : AuthorityStateMachine) (operations : List Operation) :
    AuthorityStateMachine :=
  operations.foldl step machine

@[simp]
theorem state_enter (machine : AuthorityStateMachine) (record : AuthorityStateRecord)
    (newState : AuthorityState) (reason proofId : String) :
    (machine.enter record newState reason proofId).2.state = newState := rfl

@[simp]
theorem steps_nil (machine : AuthorityStateMachine) : machine.steps [] = machine := rfl

@[simp]
theorem steps_cons (machine : AuthorityStateMachine) (operation : Operation)
    (operations : List Operation) :
    machine.steps (operation :: operations) =
      (machine.step operation).steps operations := rfl

theorem steps_append (machine : AuthorityStateMachine)
    (earlier later : List Operation) :
    machine.steps (earlier ++ later) = (machine.steps earlier).steps later :=
  List.foldl_append

/-- The record that an operation leaves, if it does not raise. -/
def recordAfter (policy : AuthorityTransitionPolicy) (operation : Operation)
    (record : AuthorityStateRecord) : Option AuthorityStateRecord :=
  match apply { record := record, history := [], transitionPolicy := policy } operation with
  | .ok (_, after) => some after.record
  | .error _ => none

/-- The record alone decides whether an operation raises and which record it
leaves; the agent stays the same. -/
theorem apply_cases (machine : AuthorityStateMachine) (operation : Operation) :
    (∃ transition after, machine.apply operation = .ok (transition, after) ∧
      after.record.agentId = machine.record.agentId ∧
        recordAfter machine.transitionPolicy operation machine.record =
          some after.record) ∨
    ∃ error, machine.apply operation = .error error ∧
      recordAfter machine.transitionPolicy operation machine.record = none := by
  cases operation with
  | governanceReset => exact Or.inl ⟨_, _, rfl, rfl, rfl⟩
  | suspend reason =>
      simp only [recordAfter, apply, suspend]
      split
      case isTrue => exact Or.inr ⟨_, rfl, rfl⟩
      case isFalse => exact Or.inl ⟨_, _, rfl, rfl, rfl⟩
  | governancePromoteElevated reason proofId =>
      simp only [recordAfter, apply, governancePromoteElevated]
      split
      case isTrue => exact Or.inr ⟨_, rfl, rfl⟩
      case isFalse =>
        split
        case isTrue => exact Or.inr ⟨_, rfl, rfl⟩
        case isFalse =>
          split
          case isTrue => exact Or.inl ⟨_, _, rfl, rfl, rfl⟩
          case isFalse => exact Or.inr ⟨_, rfl, rfl⟩
  | applyTrust trustDecision =>
      cases trustDecision with
      | none => exact Or.inr ⟨_, rfl, rfl⟩
      | some decision =>
          simp only [recordAfter, apply, applyTrust]
          split
          case isTrue => exact Or.inr ⟨_, rfl, rfl⟩
          case isFalse =>
            cases decision.status with
            | trusted => exact Or.inl ⟨_, _, rfl, rfl, rfl⟩
            | expired => exact Or.inl ⟨_, _, rfl, rfl, rfl⟩
            | untrusted => exact Or.inl ⟨_, _, rfl, rfl, rfl⟩
            | unknown => exact Or.inr ⟨_, rfl, rfl⟩

/-- All that an operation that does not raise can do to a record. -/
inductive Applied (policy : AuthorityTransitionPolicy) (record : AuthorityStateRecord) :
    Operation → AuthorityStateRecord → Prop
  | trusted (proofId : String) :
      Applied policy record (.applyTrust (some ⟨.trusted, proofId⟩)) { record with
        trustedOutcomes := record.trustedOutcomes + 1
        lastProofId := proofId
        state := (policy.evaluateTrusted record.state (record.trustedOutcomes + 1)
          record.failedOutcomes).1 }
  | expired (proofId : String) :
      Applied policy record (.applyTrust (some ⟨.expired, proofId⟩)) { record with
        lastProofId := proofId
        state := .limited }
  | untrusted (proofId : String) :
      Applied policy record (.applyTrust (some ⟨.untrusted, proofId⟩)) { record with
        failedOutcomes := record.failedOutcomes + 1
        lastProofId := proofId
        state := .limited }
  | promoted (reason proofId : String)
      (hallowed : policy.canGovernancePromoteElevated record.trustedOutcomes
        record.failedOutcomes = true) :
      Applied policy record (.governancePromoteElevated reason proofId) { record with
        lastProofId := if proofId = "" then record.lastProofId else proofId
        state := .elevated }
  | suspended (reason : String) :
      Applied policy record (.suspend reason) { record with state := .suspended }
  | reset :
      Applied policy record .governanceReset { record with
        trustedOutcomes := 0
        failedOutcomes := 0
        lastProofId := ""
        state := .probation }

/-- An operation that answers applied one of these changes, and its transition
names the state it leaves. -/
theorem applied_of_apply {machine after : AuthorityStateMachine} {operation : Operation}
    {transition : AuthorityTransition}
    (happly : machine.apply operation = .ok (transition, after)) :
    Applied machine.transitionPolicy machine.record operation after.record ∧
      transition.newState = after.record.state := by
  cases operation with
  | governanceReset =>
      cases happly
      exact ⟨.reset, rfl⟩
  | suspend reason =>
      simp only [apply, suspend] at happly
      split at happly
      · cases happly
      · cases happly
        exact ⟨.suspended reason, rfl⟩
  | governancePromoteElevated reason proofId =>
      simp only [apply, governancePromoteElevated] at happly
      split at happly
      · cases happly
      · split at happly
        · cases happly
        · split at happly
          case isTrue hallowed =>
            cases happly
            exact ⟨.promoted reason proofId hallowed, rfl⟩
          case isFalse => cases happly
  | applyTrust trustDecision =>
      cases trustDecision with
      | none => cases happly
      | some decision =>
          obtain ⟨status, proofId⟩ := decision
          simp only [apply, applyTrust] at happly
          split at happly
          · cases happly
          · cases status with
            | trusted =>
                cases happly
                exact ⟨.trusted proofId, rfl⟩
            | expired =>
                cases happly
                exact ⟨.expired proofId, rfl⟩
            | untrusted =>
                cases happly
                exact ⟨.untrusted proofId, rfl⟩
            | unknown => cases happly

theorem applied_of_recordAfter {policy : AuthorityTransitionPolicy} {operation : Operation}
    {record after : AuthorityStateRecord}
    (hafter : recordAfter policy operation record = some after) :
    Applied policy record operation after := by
  rw [recordAfter] at hafter
  split at hafter
  case h_1 machine happly =>
    rw [← Option.some.inj hafter]
    exact (applied_of_apply happly).1
  case h_2 => cases hafter

/-- Authority is elevated by a promotion that the policy allows, or stays so
through a trusted outcome. -/
theorem Applied.elevated {policy : AuthorityTransitionPolicy} {operation : Operation}
    {record after : AuthorityStateRecord} (happlied : Applied policy record operation after)
    (helevated : after.state = .elevated) :
    ((∃ reason proofId, operation = .governancePromoteElevated reason proofId) ∧
      policy.minTrustedOutcomesForElevated ≤ after.trustedOutcomes ∧
        after.failedOutcomes ≤ policy.maxFailedOutcomesForElevated) ∨
    (record.state = .elevated ∧ record.trustedOutcomes ≤ after.trustedOutcomes ∧
      after.failedOutcomes = record.failedOutcomes) := by
  cases happlied with
  | trusted proofId =>
      refine Or.inr ⟨?_, Nat.le_succ _, rfl⟩
      -- the policy answers `ELEVATED` for `ELEVATED` alone
      cases hstate : record.state <;>
        simp [hstate, AuthorityTransitionPolicy.evaluateTrusted] at helevated
      rfl
  | promoted reason proofId hallowed =>
      simp only [AuthorityTransitionPolicy.canGovernancePromoteElevated, Bool.and_eq_true,
        decide_eq_true_eq] at hallowed
      exact Or.inl ⟨⟨reason, proofId, rfl⟩, hallowed.1.2, hallowed.2⟩
  | _ => cases helevated

/-! ## Suspension -/

/-- A decision that lowers authority: expired or untrusted, with its proof. -/
def Operation.Restricts : Operation → Prop
  | .applyTrust (some decision) =>
      decision.proofId ≠ "" ∧
        (decision.status = .expired ∨ decision.status = .untrusted)
  | _ => False

/-- From every point of the run at which the machine is suspended, it stays so
until the next governance reset. -/
def SuspensionSticks (machine : AuthorityStateMachine)
    (operations : List Operation) : Prop :=
  ∀ earlier middle later, operations = earlier ++ middle ++ later →
    (machine.steps earlier).state = .suspended → .governanceReset ∉ middle →
      (machine.steps (earlier ++ middle)).state = .suspended

/-- No expired or untrusted decision is applied while the machine is suspended. -/
def NeverRestrictedWhileSuspended (machine : AuthorityStateMachine)
    (operations : List Operation) : Prop :=
  ∀ earlier operation later, operations = earlier ++ operation :: later →
    (machine.steps earlier).state = .suspended → ¬operation.Restricts

/-- What one operation does to a suspended machine. -/
theorem step_of_suspended {machine : AuthorityStateMachine} {operation : Operation}
    (hsuspended : machine.state = .suspended) (hreset : operation ≠ .governanceReset) :
    (machine.step operation).state = .suspended ↔ ¬operation.Restricts := by
  have hrecord : machine.record.state = .suspended := hsuspended
  cases operation with
  | governanceReset => exact absurd rfl hreset
  | suspend reason =>
      by_cases hreason : reason = "" <;>
        simp [step, apply, suspend, hreason, hsuspended, Operation.Restricts]
  | governancePromoteElevated reason proofId =>
      by_cases hreason : reason = "" <;>
        simp [step, apply, governancePromoteElevated, hreason, hrecord, hsuspended,
          Operation.Restricts]
  | applyTrust trustDecision =>
      cases trustDecision with
      | none => simp [step, apply, applyTrust, hsuspended, Operation.Restricts]
      | some decision =>
          obtain ⟨status, proofId⟩ := decision
          by_cases hproof : proofId = ""
          · simp [step, apply, applyTrust, hproof, hsuspended, Operation.Restricts]
          · cases status <;>
              simp [step, apply, applyTrust, hproof, hsuspended, hrecord,
                AuthorityTransitionPolicy.evaluateTrusted, Operation.Restricts]

theorem steps_of_suspended {machine : AuthorityStateMachine}
    {operations : List Operation} (hsuspended : machine.state = .suspended)
    (hnever : machine.NeverRestrictedWhileSuspended operations)
    (hreset : .governanceReset ∉ operations) :
    (machine.steps operations).state = .suspended := by
  induction operations generalizing machine with
  | nil => exact hsuspended
  | cons operation operations ih =>
      have hnext : (machine.step operation).state = .suspended :=
        (step_of_suspended hsuspended fun heq => hreset (by simp [heq])).mpr
          (hnever [] operation operations rfl hsuspended)
      refine ih hnext ?_ fun hmem => hreset (List.mem_cons_of_mem _ hmem)
      intro earlier other later hsplit hlater
      exact hnever (operation :: earlier) other later (by rw [hsplit]; rfl) hlater

/-- Suspension is sticky in exactly the runs that apply no expired and no
untrusted decision to a suspended machine. -/
theorem suspensionSticks_iff (machine : AuthorityStateMachine)
    (operations : List Operation) :
    machine.SuspensionSticks operations ↔
      machine.NeverRestrictedWhileSuspended operations := by
  constructor
  · intro hsticks earlier operation later hsplit hsuspended hrestricts
    have hreset : operation ≠ .governanceReset := by
      rintro rfl
      exact hrestricts
    have hafter := hsticks earlier [operation] later (by simp [hsplit]) hsuspended
      (by simpa using hreset.symm)
    rw [steps_append] at hafter
    exact (step_of_suspended hsuspended hreset).mp hafter hrestricts
  · intro hnever earlier middle later hsplit hsuspended hreset
    rw [steps_append]
    refine steps_of_suspended hsuspended ?_ hreset
    intro inner operation rest hmiddle hinner
    refine hnever (earlier ++ inner) operation (rest ++ later) ?_ ?_
    · rw [hsplit, hmiddle]
      simp
    · rw [steps_append]
      exact hinner

/-- An agent that was just suspended is `LIMITED` after an expired decision. -/
theorem not_suspensionSticks_expired :
    ¬SuspensionSticks
      { record := { agentId := "agent-1" }, history := [],
        transitionPolicy := .default }
      [.suspend "critical_failure", .applyTrust (some ⟨.expired, "proof-1"⟩)] := by
  intro hsticks
  have hafter := hsticks [.suspend "critical_failure"]
    [.applyTrust (some ⟨.expired, "proof-1"⟩)] [] rfl (by decide) (by decide)
  exact absurd hafter (by decide)

end AuthorityStateMachine

end AegisForge.Shared
