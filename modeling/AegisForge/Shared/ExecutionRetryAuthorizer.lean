import AegisForge.Shared.AgentAuthority

/-!
# The retry authorizer

A retry gets a grant of its own, issued for the current authority from a
signed intent that is verified again.
-/

namespace AegisForge.Shared

open AegisForge.Core AegisForge.Concurrency

structure ExecutionRetryAuthorizer where
  crypto : Crypto
  authorityRegistry : AgentAuthorityRegistry
  capabilitySigner : CapabilitySigner

namespace ExecutionRetryAuthorizer

def authorizationError (message : String) : Raised :=
  ⟨.executionRetryAuthorizationError, message⟩

/-- What `authorize` asks of the signed intent before it looks at authority. -/
def checkIntent (authorizer : ExecutionRetryAuthorizer) (attempt : ExecutionAttempt)
    (intent : ActionIntent) (signedActionIntent : SignedActionIntent) (current : Time) :
    Except Raised Unit :=
  match signedActionIntent.verify authorizer.crypto current with
  | .error _ => .error (authorizationError "signed_action_intent_invalid")
  | .ok _ =>
      if signedActionIntent.intentHash ≠ attempt.intentHash then
        .error (authorizationError "retry_intent_hash_mismatch")
      else if signedActionIntent.intent ≠ intent then
        .error (authorizationError "retry_intent_mismatch")
      else .ok ()

/-- The scope of the grant when the caller names none. -/
def defaultScope (intent : ActionIntent) : String :=
  if intent.destination = "" then intent.resource else intent.destination

/-- `authorize`; `fresh` is what `secrets` draws. -/
def authorize (authorizer : ExecutionRetryAuthorizer) (attempt : ExecutionAttempt)
    (intent : ActionIntent) (signedActionIntent : SignedActionIntent)
    (evidenceIds : List String) (ttlSeconds : ℕ) (authorizedScope : Option String)
    (now : Option Time) (grantId nonce : Option String) (fresh : String) :
    Action SignedCapabilityGrant := do
  Program.raiseIf (attempt.taskId = "") (authorizationError "attempt_task_id_required")
  let current ← currentTime now
  Program.ofExcept (authorizer.checkIntent attempt intent signedActionIntent current)
  let authority ← wrap (· = .agentAuthorityError)
    (fun _ => authorizationError "current_authority_unavailable")
    (authorizer.authorityRegistry.get signedActionIntent.agentIdentity.identity.agentId)
  let verifiedAt ← send .readClock
  let issuedAt ← send .readClock
  let grant ← wrap ExceptionClass.isValueError
    (fun _ => authorizationError "retry_grant_issue_failed")
    (Program.ofExcept (issueCapabilityGrant authorizer.crypto attempt.taskId intent
      authority.policyVersion evidenceIds (authorizedScope.getD (defaultScope intent))
      ttlSeconds authority (some signedActionIntent) grantId nonce fresh verifiedAt
      issuedAt))
  let signedGrant := authorizer.capabilitySigner.sign grant
  Program.raiseIf (signedGrant.grant.grantId = attempt.grantId)
    (authorizationError "retry_grant_must_be_new")
  pure signedGrant

end ExecutionRetryAuthorizer

end AegisForge.Shared
