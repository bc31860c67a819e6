import AegisForge.Shared.Database

/-!
# The agent authority registry

Each operation reads the registry row and the stored machine, applies one pure
transition and writes the whole record back.  Nothing spans these statements,
so another call may run between any two of them.
-/

namespace AegisForge.Shared

open AegisForge.Concurrency

namespace AuthorityStateStore

def load (agentId : String) : Action AuthorityStateMachine := do
  Program.raiseIf (agentId = "") ⟨.authorityStateError, "agent_id_required"⟩
  match ← send (.selectAuthorityState agentId) with
  | none => Program.ofExcept (AuthorityStateMachine.new agentId .default)
  | some record =>
      let history ← send (.selectAuthorityTransitions agentId)
      pure { record := record, history := history, transitionPolicy := .default }

/-- `save`, whose upsert, delete and inserts commit together. -/
def save (machine : AuthorityStateMachine) : Action Unit :=
  send (.saveAuthority machine.record machine.history)

end AuthorityStateStore

structure AgentAuthorityRegistry where
  policy : CapabilityPolicy := .default
  transitionPolicy : AuthorityTransitionPolicy := .default

namespace AgentAuthorityRegistry

def agentAuthorityError (message : String) : Raised := ⟨.agentAuthorityError, message⟩

def get (registry : AgentAuthorityRegistry) (agentId : String) : Action AgentAuthority := do
  Program.raiseIf (agentId = "") (agentAuthorityError "agent_id_required")
  match ← send (.selectRegistryRow agentId) with
  | none => .fail (agentAuthorityError "agent_not_registered")
  | some row =>
      let loaded ← AuthorityStateStore.load agentId
      let machine := { loaded with transitionPolicy := registry.transitionPolicy }
      pure {
        agentId := row.agentId
        policyVersion := row.policyVersion
        state := machine.state
        trustedOutcomes := machine.record.trustedOutcomes
        failedOutcomes := machine.record.failedOutcomes
        lastProofId := machine.record.lastProofId
        authorityEpoch := row.authorityEpoch }

def register (registry : AgentAuthorityRegistry) (agentId : String)
    (policyVersion : Option String) : Action AgentAuthority := do
  Program.raiseIf (agentId = "") (agentAuthorityError "agent_id_required")
  match ← send (.selectRegistryRow agentId) with
  | some _ => registry.get agentId
  | none =>
      let version := (policyVersion.filter (· ≠ "")).getD CapabilityPolicy.version
      let machine ←
        Program.ofExcept (AuthorityStateMachine.new agentId registry.transitionPolicy)
      AuthorityStateStore.save machine
      let inserted : Bool ← send (.insertRegistryRow agentId version)
      Program.raiseIf (inserted = false)
        ⟨.integrityError, "UNIQUE constraint failed: agent_authority_registry.agent_id"⟩
      registry.get agentId

/-- `_machine`: the agent is registered, and its machine is loaded again. -/
def machine (registry : AgentAuthorityRegistry) (agentId : String) :
    Action AuthorityStateMachine := do
  let _ ← registry.get agentId
  let loaded ← AuthorityStateStore.load agentId
  pure { loaded with transitionPolicy := registry.transitionPolicy }

/-- After a save: advance the epoch if asked to, and answer the authority. -/
def settle (registry : AgentAuthorityRegistry) (agentId : String) (advance : Bool)
    (applied : AuthorityTransition) : Action (AgentAuthority × AuthorityTransition) := do
  if advance then send (.incrementEpoch agentId) else pure ()
  let authority ← registry.get agentId
  pure (authority, applied)

/-- The part that the four operations on the machine share: load, apply the
operation, save, advance the epoch if `advances` says so, answer the authority. -/
def rewrite (registry : AgentAuthorityRegistry) (agentId : String)
    (operation : AuthorityStateMachine.Operation)
    (advances : AuthorityState → AuthorityTransition → Bool) :
    Action (AgentAuthority × AuthorityTransition) := do
  let machine ← registry.machine agentId
  let (applied, after) ← Program.ofExcept (machine.apply operation)
  AuthorityStateStore.save after
  registry.settle agentId (advances machine.state applied) applied

/-- The epoch advances only when the state changed. -/
def recordTrust (registry : AgentAuthorityRegistry) (agentId : String)
    (trustDecision : Option TrustDecision) :
    Action (AgentAuthority × AuthorityTransition) :=
  registry.rewrite agentId (.applyTrust trustDecision)
    fun previous applied => applied.newState ≠ previous

def governancePromoteElevated (registry : AgentAuthorityRegistry)
    (agentId reason proofId : String) : Action (AgentAuthority × AuthorityTransition) :=
  registry.rewrite agentId (.governancePromoteElevated reason proofId) fun _ _ => true

def suspend (registry : AgentAuthorityRegistry) (agentId reason : String) :
    Action (AgentAuthority × AuthorityTransition) :=
  registry.rewrite agentId (.suspend reason) fun _ _ => true

def governanceReset (registry : AgentAuthorityRegistry) (agentId reason : String) :
    Action (AgentAuthority × AuthorityTransition) := do
  Program.raiseIf (reason = "") (agentAuthorityError "reset_reason_required")
  registry.rewrite agentId .governanceReset fun _ _ => true

def rotatePolicy (registry : AgentAuthorityRegistry) (agentId policyVersion : String) :
    Action AgentAuthority := do
  Program.raiseIf (policyVersion = "") (agentAuthorityError "policy_version_required")
  let _ ← registry.get agentId
  send (.updatePolicyVersion agentId policyVersion)
  registry.get agentId

end AgentAuthorityRegistry

end AegisForge.Shared
