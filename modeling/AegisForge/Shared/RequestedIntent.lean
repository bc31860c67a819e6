import AegisForge.Core.Checks
import AegisForge.Core.JsonText
import AegisForge.Shared.CapabilityPolicy

/-!
# Intents whose types nobody has checked

`ActionIntent(**fields)` takes whatever stands in a stored record.  The policy on
such an intent compares texts, asks whether other values are true as conditions, and
raises where a value cannot be looked up in a set.
-/

namespace AegisForge.Shared

open AegisForge.Core

structure RequestedIntent where
  role : Json
  action : Json
  agentId : Json
  target : Json
  resource : Json
  destination : Json
  dataScope : Json
  irreversible : Json
  requiresNetwork : Json
  requiresShell : Json
  requiresFilesystem : Json
  financial : Json
  privileged : Json
  readOnly : Json
  evidenceRequired : Json
  parameters : Json

def unhashable : Raised := ⟨.typeError, "unhashable type"⟩

/-- `value in names`, where `names` is a set of texts. -/
def isAmong (value : Json) (names : List String) : Except Raised Bool :=
  if value.isHashable = true then .ok (value.text?.any (· ∈ names)) else .error unhashable

namespace RequestedIntent

/-! ## Construction -/

/-- The fields of `ActionIntent`. -/
def fieldNames : List String :=
  ["role", "action", "agent_id", "target", "resource", "destination", "data_scope",
    "irreversible", "requires_network", "requires_shell", "requires_filesystem", "financial",
    "privileged", "read_only", "evidence_required", "parameters"]

/-- The given fields and the defaults of the others. -/
def read (fields : List (String × Json)) : RequestedIntent :=
  let field (name : String) (default : Json) := (fields.lookup name).getD default
  {
    role := field "role" .null
    action := field "action" .null
    agentId := field "agent_id" (.text "")
    target := field "target" (.text "")
    resource := field "resource" (.text "")
    destination := field "destination" (.text "")
    dataScope := field "data_scope" (.text "")
    irreversible := field "irreversible" (.bool false)
    requiresNetwork := field "requires_network" (.bool false)
    requiresShell := field "requires_shell" (.bool false)
    requiresFilesystem := field "requires_filesystem" (.bool false)
    financial := field "financial" (.bool false)
    privileged := field "privileged" (.bool false)
    readOnly := field "read_only" (.bool true)
    evidenceRequired := field "evidence_required" (.bool false)
    parameters := field "parameters" .null
  }

/-- `ActionIntent(**fields)`. -/
def ofFields (fields : List (String × Json)) : Except Raised RequestedIntent := do
  let names := fields.map Prod.fst
  raiseUnless (∀ name ∈ names, name ∈ fieldNames)
    ⟨.typeError, "ActionIntent.__init__() got an unexpected keyword argument"⟩
  raiseUnless ("role" ∈ names ∧ "action" ∈ names)
    ⟨.typeError, "ActionIntent.__init__() missing required positional arguments"⟩
  return read fields

/-! ## The policy -/

/-- `if value in names: return BLOCK`. -/
def blockIfAmong (value : Json) (names : List String) (reason : String)
    (next : Except Raised (CapabilityDecision × String)) :
    Except Raised (CapabilityDecision × String) := do
  let found ← isAmong value names
  if found = true then .ok (.block, reason) else next

/-- `ROLE_ALLOWED_ACTIONS.get(intent.role, set())`. -/
def allowedActions (role : Json) : Except Raised (List String) :=
  if role.isHashable = true then
    .ok ((role.text?.bind fun role => CapabilityPolicy.roleAllowedActions.lookup role).getD [])
  else .error unhashable

/-- Something about the intent asks for evidence, whatever its action is. -/
def isDemanding (intent : RequestedIntent) : Bool :=
  !intent.readOnly.isTruthy || intent.irreversible.isTruthy || intent.financial.isTruthy ||
    intent.privileged.isTruthy || intent.evidenceRequired.isTruthy

/-- `CapabilityPolicy.check`. -/
def check (policy : CapabilityPolicy) (intent : RequestedIntent) :
    Except Raised (CapabilityDecision × String) :=
  blockIfAmong intent.target policy.blockedTargets "blocked_target" <|
  blockIfAmong intent.destination policy.blockedDestinations "blocked_destination" <|
  blockIfAmong intent.dataScope policy.blockedDataScopes "blocked_data_scope" do
    let allowed ← allowedActions intent.role
    let permitted ← isAmong intent.action allowed
    if permitted = false then .ok (.block, "action_not_allowed_for_role")
    else if intent.requiresShell.isTruthy = true ∧ ¬policy.shellAllowed then
      .ok (.block, "shell_disabled")
    else if intent.requiresNetwork.isTruthy = true ∧ ¬policy.networkAllowed then
      .ok (.block, "network_disabled")
    else if intent.requiresFilesystem.isTruthy = true ∧ ¬policy.filesystemAllowed then
      .ok (.block, "filesystem_disabled")
    else do
      let sensitive ← isAmong intent.action CapabilityPolicy.sensitiveActions
      if sensitive = true ∨ intent.isDemanding = true then
        .ok (.requireEvidence, "evidence_required_for_sensitive_action")
      else .ok (.allow, "policy_pass")

/-- `SENSITIVE_EVIDENCE_REQUIREMENTS`. -/
def sensitiveEvidenceRequirements : List (String × List String) := [
  ("modify_code", ["tests_passed"]),
  ("deploy", ["tests_passed", "security_scan_passed", "rollback_ready"]),
  ("publish", ["tests_passed", "security_scan_passed", "artifact_integrity"]),
  ("delete", ["recovery_ready"]),
  ("transfer", ["authorization_confirmed", "destination_allowed", "simulation_passed"]),
  ("release", ["tests_passed", "security_scan_passed", "artifact_integrity"]),
  ("api_request", ["destination_allowed"]),
  ("mcp_tool_call", ["destination_allowed"])]

/-- `EVIDENCE_SOURCE_ROLES`. -/
def evidenceSourceRoles : List (String × List String) := [
  ("tests_passed", ["developer", "validator"]),
  ("security_scan_passed", ["security_checker", "validator"]),
  ("rollback_ready", ["developer", "validator"]),
  ("rollback_or_recovery_ready", ["developer", "validator"]),
  ("artifact_integrity", ["developer", "security_checker", "validator"]),
  ("recovery_ready", ["developer", "validator"]),
  ("authorization_confirmed", ["validator"]),
  ("destination_allowed", ["validator", "security_checker"]),
  ("simulation_passed", ["validator", "security_checker"]),
  ("financial_authorization", ["validator"]),
  ("privilege_scope_verified", ["security_checker", "validator"]),
  ("explicit_evidence", ["validator"])]

/-- `CapabilityPolicy.evidence_source_allowed`. -/
def evidenceSourceAllowed (claimType : String) (sourceRole : Json) : Except Raised Bool :=
  isAmong sourceRole ((evidenceSourceRoles.lookup claimType).getD [])

/-- The types of evidence that the flags of an intent ask for. -/
def flaggedRequirements (intent : RequestedIntent) : List String :=
  (if intent.financial.isTruthy then ["financial_authorization", "destination_allowed"] else []) ++
  (if intent.privileged.isTruthy then ["privilege_scope_verified"] else []) ++
  if intent.irreversible.isTruthy then ["rollback_or_recovery_ready"] else []

/-- `CapabilityPolicy.required_evidence`. -/
def requiredEvidence (intent : RequestedIntent) : Except Raised (List String) :=
  if intent.action.isHashable = false then .error unhashable
  else
    let requirements :=
      ((intent.action.text?.bind fun action => sensitiveEvidenceRequirements.lookup action).getD []
        ++ intent.flaggedRequirements).dedup
    if intent.evidenceRequired.isTruthy = true ∧ requirements = [] then .ok ["explicit_evidence"]
    else .ok (sorted requirements)

/-! ## Effective capability -/

/-- What the `PROBATION` and `LIMITED` states do not allow. -/
def isRestricted (intent : RequestedIntent) : Except Raised Bool := do
  let safe ← isAmong intent.action EffectiveCapability.safeActions
  return !safe || !intent.readOnly.isTruthy || intent.irreversible.isTruthy ||
    intent.financial.isTruthy || intent.privileged.isTruthy || intent.requiresNetwork.isTruthy ||
    intent.requiresShell.isTruthy || intent.requiresFilesystem.isTruthy

/-- `evaluate_effective_capability`: the decision and the reason. -/
def evaluateEffective (intent : RequestedIntent) (state : AuthorityState) :
    Except Raised (CapabilityDecision × String) := do
  let base ← intent.check .default
  if base.1 = .block then .ok (.block, "static_policy:" ++ base.2)
  else if state = .suspended then .ok (.block, "authority_suspended")
  else do
    let restricted ← isRestricted intent
    if (state = .probation ∨ state = .limited) ∧ restricted = true then
      .ok (.block, "dynamic_authority_restricted")
    else if base.1 = .requireEvidence then .ok (.requireEvidence, base.2)
    else .ok (.allow, "effective_authority_allowed")

end RequestedIntent

end AegisForge.Shared
