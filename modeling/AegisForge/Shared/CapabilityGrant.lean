import AegisForge.Shared.SignedActionIntent

/-!
# Capability grants and their signatures

`CapabilityGrant` with its binding check, its issue and its reading back from
JSON, and the signed artifact around it.
-/

namespace AegisForge.Shared

open AegisForge.Core

structure CapabilityGrant where
  grantId : String
  taskId : String
  agentId : String
  authorityEpoch : ℕ
  authorityState : AuthorityState
  intentHash : String
  policyVersion : String
  evidenceIds : List String := []
  evidenceHash : String := ""
  authorizedAction : String := ""
  authorizedTarget : String := ""
  authorizedScope : String := ""
  issuedAt : Stamp := .unreadable ""
  expiresAt : Stamp := .unreadable ""
  nonce : String := ""
  status : String := "ACTIVE"
  outcomeContract : OutcomeContract := []
  signedActionIntent : IntentPayload := .empty
  deriving DecidableEq

def capabilityGrantError (message : String) : Raised :=
  ⟨.capabilityGrantError, message⟩

/-- `evidence_hash`, which sorts the ids first. -/
def evidenceHash (crypto : Crypto) (evidenceIds : List String) : String :=
  crypto.evidenceHash (sorted evidenceIds)

namespace CapabilityGrant

/-- The check of the embedded signed intent that `from_dict` and
`verify_binding` share; `current` is the clock's time. -/
def verifySignedIntent (crypto : Crypto) (grant : CapabilityGrant) (current : Time) :
    Except Raised Unit :=
  if grant.signedActionIntent = .empty then .ok ()
  else
    let verified := do
      let signed ← SignedActionIntent.fromDict grant.signedActionIntent
      signed.verify crypto current
      pure signed
    match verified with
    | .error _ => .error (capabilityGrantError "signed_action_intent_invalid")
    | .ok signed =>
        if signed.intentHash ≠ grant.intentHash then
          .error (capabilityGrantError "signed_action_intent_hash_mismatch")
        else .ok ()

/-- `from_dict` on the fields of a grant. -/
def fromDict (crypto : Crypto) (payload : CapabilityGrant) (current : Time) :
    Except Raised CapabilityGrant := do
  let grant := { payload with evidenceIds := sorted payload.evidenceIds }
  validateOutcomeContract payload.outcomeContract (some payload.authorizedAction)
  grant.verifySignedIntent crypto current
  if grant.evidenceHash ≠ Shared.evidenceHash crypto grant.evidenceIds then
    .error (capabilityGrantError "evidence_hash_mismatch")
  else pure grant

def verifyBinding (crypto : Crypto) (grant : CapabilityGrant) (intent : ActionIntent)
    (evidenceIds : List String) (current : Time) : Except Raised Unit := do
  if grant.status ≠ "ACTIVE" then
    .error (capabilityGrantError "grant_not_active")
  if grant.intentHash ≠ crypto.intentHash intent then
    .error (capabilityGrantError "intent_hash_mismatch")
  grant.verifySignedIntent crypto current
  if grant.evidenceHash ≠ Shared.evidenceHash crypto evidenceIds then
    .error (capabilityGrantError "evidence_hash_mismatch")
  if sorted evidenceIds ≠ sorted grant.evidenceIds then
    .error (capabilityGrantError "evidence_ids_mismatch")
  if grant.authorizedAction ≠ intent.action then
    .error (capabilityGrantError "authorized_action_mismatch")
  if grant.authorizedTarget ≠ intent.target then
    .error (capabilityGrantError "authorized_target_mismatch")
  validateOutcomeContract intent.parameters.outcomeContract (some intent.action)
  validateOutcomeContract grant.outcomeContract (some intent.action)
  if intent.parameters.outcomeContract ≠ grant.outcomeContract then
    .error (capabilityGrantError "outcome_contract_mismatch")
  pure ()

end CapabilityGrant

/-- `consume_capability_grant`: `clock` is the clock's time, `current` the
given time or else the clock's. -/
def consumeCapabilityGrant (crypto : Crypto) (grant : CapabilityGrant)
    (intent : ActionIntent) (evidenceIds : List String) (clock current : Time) :
    Except Raised Unit := do
  grant.verifyBinding crypto intent evidenceIds clock
  match grant.expiresAt.time? with
  | none => .error (capabilityGrantError "invalid_expiry")
  | some expires =>
      if expires ≤ current then .error (capabilityGrantError "grant_expired")
      else pure ()

/-- `issue_capability_grant` for an authority context.  The clock is read twice,
at `verifiedAt` and at `current`; `fresh` stands for the identifiers `secrets`
draws when none is given. -/
def issueCapabilityGrant (crypto : Crypto) (taskId : String) (intent : ActionIntent)
    (policyVersion : String) (evidenceIds : List String) (authorizedScope : String)
    (ttlSeconds : ℕ) (authority : AgentAuthority)
    (signedActionIntent : Option SignedActionIntent) (grantId nonce : Option String)
    (fresh : String) (verifiedAt current : Time) : Except Raised CapabilityGrant := do
  if authority.agentId = "" then
    .error (capabilityGrantError "authority_agent_id_required")
  if authority.authorityEpoch = 0 then
    .error (capabilityGrantError "authority_epoch_required")
  if policyVersion ≠ authority.policyVersion then
    .error (capabilityGrantError "authority_policy_version_mismatch")
  let payload ← match signedActionIntent with
    | none => pure IntentPayload.empty
    | some signed =>
        match signed.verify crypto verifiedAt with
        | .error _ => .error (capabilityGrantError "signed_action_intent_invalid")
        | .ok _ =>
            if signed.intentHash ≠ crypto.intentHash intent then
              .error (capabilityGrantError "signed_action_intent_hash_mismatch")
            else pure (IntentPayload.artifact signed)
  let effective := evaluateEffectiveCapability intent authority.state .default
  if effective.decision = .block then
    .error (capabilityGrantError ("authority_blocked:" ++ effective.reason))
  if ttlSeconds = 0 then
    .error (capabilityGrantError "invalid_ttl")
  validateOutcomeContract intent.parameters.outcomeContract (some intent.action)
  pure {
    grantId := (grantId.filter (· ≠ "")).getD ("grant_" ++ fresh)
    taskId := taskId
    agentId := authority.agentId
    authorityEpoch := authority.authorityEpoch
    authorityState := authority.state
    intentHash := crypto.intentHash intent
    policyVersion := policyVersion
    evidenceIds := sorted evidenceIds
    evidenceHash := evidenceHash crypto (sorted evidenceIds)
    authorizedAction := intent.action
    authorizedTarget := intent.target
    authorizedScope := authorizedScope
    issuedAt := .at current
    expiresAt := .at (current + seconds ttlSeconds)
    nonce := (nonce.filter (· ≠ "")).getD fresh
    outcomeContract := intent.parameters.outcomeContract
    signedActionIntent := payload }

/-! ## Signatures -/

structure SignedCapabilityGrant where
  grant : CapabilityGrant
  keyId : String
  signature : String
  agentIdentity : Option SignedAgentIdentity := none
  algorithm : String := "Ed25519"
  deriving DecidableEq

def capabilitySignatureError (message : String) : Raised :=
  ⟨.capabilitySignatureError, message⟩

/-- `SignedCapabilityGrant.from_dict` on the fields of an artifact. -/
def SignedCapabilityGrant.fromDict (crypto : Crypto) (payload : SignedCapabilityGrant)
    (current : Time) : Except Raised SignedCapabilityGrant :=
  if payload.algorithm ≠ "Ed25519" then
    .error (capabilitySignatureError "unsupported_signature_algorithm")
  else match CapabilityGrant.fromDict crypto payload.grant current with
    | .error error => .error (capabilitySignatureError error.message)
    | .ok grant =>
        match payload.agentIdentity with
        | none => .ok { payload with grant := grant }
        | some identity =>
            match SignedAgentIdentity.fromDict identity with
            | .error error => .error (capabilitySignatureError error.message)
            | .ok _ => .ok { payload with grant := grant }

/-- An Ed25519 key with its id: the signature of an artifact whose signature is
still empty, and whether an artifact's signature verifies. -/
structure CapabilitySigner where
  keyId : String
  signature : SignedCapabilityGrant → String
  signatureValid : SignedCapabilityGrant → Bool

namespace CapabilitySigner

/-- `sign(grant)` without an agent identity. -/
def sign (signer : CapabilitySigner) (grant : CapabilityGrant) : SignedCapabilityGrant :=
  let artifact : SignedCapabilityGrant :=
    { grant := grant, keyId := signer.keyId, signature := "" }
  { artifact with signature := signer.signature artifact }

/-- The identity that an artifact may carry is valid and is the grant's agent. -/
def verifyAgentIdentity (crypto : Crypto) (signed : SignedCapabilityGrant) :
    Except Raised Unit :=
  match signed.agentIdentity with
  | none => .ok ()
  | some identity =>
      match identity.verifyIdentity crypto with
      | .error error => .error (capabilitySignatureError error.message)
      | .ok _ =>
          if identity.identity.agentId ≠ signed.grant.agentId then
            .error (capabilitySignatureError "agent_identity_mismatch")
          else .ok ()

def verify (crypto : Crypto) (signer : CapabilitySigner) (signed : SignedCapabilityGrant) :
    Except Raised CapabilityGrant :=
  if signed.algorithm ≠ "Ed25519" then
    .error (capabilitySignatureError "unsupported_signature_algorithm")
  else if signed.keyId ≠ signer.keyId then
    .error (capabilitySignatureError "signer_key_id_mismatch")
  else match verifyAgentIdentity crypto signed with
    | .error error => .error error
    | .ok _ =>
        if signer.signatureValid signed then .ok signed.grant
        else .error (capabilitySignatureError "signature_invalid")

/-- Verifying answers the grant of the artifact. -/
theorem verify_eq_ok {crypto : Crypto} {signer : CapabilitySigner}
    {signed : SignedCapabilityGrant} {grant : CapabilityGrant}
    (hverify : signer.verify crypto signed = .ok grant) : grant = signed.grant := by
  rw [verify] at hverify
  split at hverify
  case isTrue => cases hverify
  case isFalse =>
    split at hverify
    case isTrue => cases hverify
    case isFalse =>
      split at hverify
      case h_1 => cases hverify
      case h_2 =>
        split at hverify
        case isTrue => exact (Except.ok.inj hverify).symm
        case isFalse => cases hverify

end CapabilitySigner

end AegisForge.Shared
