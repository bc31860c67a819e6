import AegisForge.Shared.AuthorityState
import AegisForge.Shared.OutcomeContract

/-!
# Capability policy and effective capability

The static role policy and what an authority state narrows it to.  Static
policy stays the hard ceiling: the dynamic state can only block more.
-/

namespace AegisForge.Shared

/-- `ActionIntent.parameters`: the outcome contract, and the canonical text of
each other entry. -/
structure IntentParameters where
  outcomeContract : OutcomeContract := []
  others : List (String × String) := []
  deriving DecidableEq, Repr

structure ActionIntent where
  role : String
  action : String
  agentId : String := ""
  target : String := ""
  resource : String := ""
  destination : String := ""
  dataScope : String := ""
  irreversible : Bool := false
  requiresNetwork : Bool := false
  requiresShell : Bool := false
  requiresFilesystem : Bool := false
  financial : Bool := false
  privileged : Bool := false
  readOnly : Bool := true
  evidenceRequired : Bool := false
  parameters : IntentParameters := {}
  deriving DecidableEq, Repr

inductive CapabilityDecision
  | allow
  | block
  | requireEvidence
  deriving DecidableEq, Repr

structure CapabilityPolicy where
  blockedTargets : List String :=
    ["unknown_external_endpoint", "production_database", "production_environment"]
  blockedDestinations : List String :=
    ["production_database", "production", "production_environment", "production_api",
      "unauthorized_external_destination"]
  blockedDataScopes : List String :=
    ["credentials", "private_keys", "secrets", "api_keys", "passwords"]
  networkAllowed : Bool := true
  shellAllowed : Bool := true
  filesystemAllowed : Bool := true

namespace CapabilityPolicy

/-- The policy constructed without arguments. -/
def default : CapabilityPolicy := {}

/-- `CapabilityPolicy.VERSION`. -/
def version : String := "capability-policy-v1"

def roleAllowedActions : List (String × List String) := [
  ("researcher", ["research", "read_public_docs"]),
  ("analyst", ["analyze", "inspect_evidence"]),
  ("developer", ["inspect_code", "modify_code", "run_tests", "deploy", "publish",
    "delete", "transfer", "release", "api_request", "mcp_tool_call"]),
  ("security_checker", ["security_scan", "inspect_code", "verify"]),
  ("opportunity_hunter", ["identify_opportunities", "research"]),
  ("validator", ["validate", "verify"]),
  ("model_researcher", ["model_research", "research"]),
  ("source_researcher", ["research", "read_public_docs"]),
  ("crypto_analyst", ["analyze", "inspect_evidence"]),
  ("lab_runner", ["run_synthetic_lab", "inspect_evidence", "verify"])]

def sensitiveActions : List String :=
  ["modify_code", "deploy", "publish", "delete", "transfer", "release", "api_request",
    "mcp_tool_call"]

def check (policy : CapabilityPolicy) (intent : ActionIntent) :
    CapabilityDecision × String :=
  if intent.target ∈ policy.blockedTargets then (.block, "blocked_target")
  else if intent.destination ∈ policy.blockedDestinations then
    (.block, "blocked_destination")
  else if intent.dataScope ∈ policy.blockedDataScopes then (.block, "blocked_data_scope")
  else if intent.action ∉ (roleAllowedActions.lookup intent.role).getD [] then
    (.block, "action_not_allowed_for_role")
  else if intent.requiresShell ∧ ¬policy.shellAllowed then (.block, "shell_disabled")
  else if intent.requiresNetwork ∧ ¬policy.networkAllowed then
    (.block, "network_disabled")
  else if intent.requiresFilesystem ∧ ¬policy.filesystemAllowed then
    (.block, "filesystem_disabled")
  else if intent.action ∈ sensitiveActions ∨ ¬intent.readOnly ∨ intent.irreversible ∨
      intent.financial ∨ intent.privileged ∨ intent.evidenceRequired then
    (.requireEvidence, "evidence_required_for_sensitive_action")
  else (.allow, "policy_pass")

end CapabilityPolicy

/-! ## Effective capability -/

structure EffectiveCapability where
  decision : CapabilityDecision
  reason : String
  state : AuthorityState
  action : String
  deriving DecidableEq, Repr

namespace EffectiveCapability

def safeActions : List String :=
  ["research", "read_public_docs", "analyze", "inspect_evidence", "inspect_code",
    "security_scan", "verify", "validate", "identify_opportunities", "model_research",
    "run_tests"]

/-- What the `PROBATION` and `LIMITED` states do not allow. -/
def isRestricted (intent : ActionIntent) : Bool :=
  decide (intent.action ∉ safeActions) || !intent.readOnly || intent.irreversible ||
    intent.financial || intent.privileged || intent.requiresNetwork ||
    intent.requiresShell || intent.requiresFilesystem

end EffectiveCapability

open EffectiveCapability in
def evaluateEffectiveCapability (intent : ActionIntent) (state : AuthorityState)
    (policy : CapabilityPolicy) : EffectiveCapability :=
  let base := policy.check intent
  if base.1 = .block then ⟨.block, "static_policy:" ++ base.2, state, intent.action⟩
  else if state = .suspended then ⟨.block, "authority_suspended", state, intent.action⟩
  else if (state = .probation ∨ state = .limited) ∧ isRestricted intent then
    ⟨.block, "dynamic_authority_restricted", state, intent.action⟩
  else if base.1 = .requireEvidence then
    ⟨.requireEvidence, base.2, state, intent.action⟩
  else ⟨.allow, "effective_authority_allowed", state, intent.action⟩

end AegisForge.Shared
