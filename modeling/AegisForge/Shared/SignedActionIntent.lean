import AegisForge.Core.Time
import AegisForge.Shared.CapabilityPolicy

/-!
# Signed identities and signed action intents

Hashes and signatures come from outside the repository and are the fields of
`Crypto`; every check around them is the repository's own.
-/

namespace AegisForge.Shared

open AegisForge.Core

/-- `AgentIdentity`; the proofs are the checks of `__post_init__`. -/
structure AgentIdentity where
  agentId : String
  role : String
  agentIdRequired : agentId ≠ ""
  roleRequired : role ≠ ""

theorem AgentIdentity.eq_iff {left right : AgentIdentity} :
    left.agentId = right.agentId ∧ left.role = right.role ↔ left = right := by
  cases left
  cases right
  rw [AgentIdentity.mk.injEq]

instance : DecidableEq AgentIdentity :=
  fun _ _ => decidable_of_iff _ AgentIdentity.eq_iff

structure SignedAgentIdentity where
  identity : AgentIdentity
  publicKey : String
  keyId : String
  signature : String
  algorithm : String := "Ed25519"
  schemaVersion : String := "signed-agent-identity-v1"
  deriving DecidableEq

structure SignedActionIntent where
  intent : ActionIntent
  intentHash : String
  agentIdentity : SignedAgentIdentity
  issuedAt : Stamp
  nonce : String
  signature : String
  algorithm : String := "Ed25519"
  schemaVersion : String := "signed-action-intent-v1"
  expiresAt : Stamp := .unreadable ""
  deriving DecidableEq

/-- What the JSON object of a signed intent is: empty, not of the expected
shape, or the fields of an artifact. -/
inductive IntentPayload
  | empty
  | malformed (message : String)
  | artifact (signed : SignedActionIntent)
  deriving DecidableEq

/-- The hashes and signature checks of the libraries the code calls. -/
structure Crypto where
  /-- SHA-256 of the canonical JSON of an intent. -/
  intentHash : ActionIntent → String
  /-- SHA-256 of the canonical JSON of a sorted list of evidence ids. -/
  evidenceHash : List String → String
  /-- The text of the error that `verify_identity` raises, if it raises. -/
  identityError : SignedAgentIdentity → Option String
  /-- Whether the Ed25519 signature covers the canonical intent payload. -/
  intentSignatureValid : SignedActionIntent → Bool

def signedActionIntentError (message : String) : Raised :=
  ⟨.signedActionIntentError, message⟩

namespace SignedAgentIdentity

def verifyIdentity (crypto : Crypto) (signed : SignedAgentIdentity) :
    Except Raised AgentIdentity :=
  match crypto.identityError signed with
  | some message => .error ⟨.agentIdentitySignatureError, message⟩
  | none => .ok signed.identity

/-- `SignedAgentIdentity.from_dict` on the fields of an identity. -/
def fromDict (payload : SignedAgentIdentity) : Except Raised SignedAgentIdentity :=
  if payload.algorithm = "Ed25519" ∧ payload.schemaVersion = "signed-agent-identity-v1" then
    .ok payload
  else .error ⟨.agentIdentitySignatureError, "unsupported_signed_agent_identity"⟩

end SignedAgentIdentity

namespace SignedActionIntent

def fromDict : IntentPayload → Except Raised SignedActionIntent
  | .empty => .error (signedActionIntentError ("signed_action_intent_fields_missing:" ++
      "agent_identity,algorithm,expires_at,intent,intent_hash,issued_at,nonce," ++
      "schema_version,signature"))
  | .malformed message => .error (signedActionIntentError message)
  | .artifact signed =>
      if signed.algorithm = "Ed25519" ∧ signed.schemaVersion = "signed-action-intent-v1" then
        match SignedAgentIdentity.fromDict signed.agentIdentity with
        | .ok _ => .ok signed
        | .error error => .error (signedActionIntentError error.message)
      else .error (signedActionIntentError "unsupported_signed_action_intent")

/-- `verify`, where `current` is the given time or the clock's. -/
def verify (crypto : Crypto) (signed : SignedActionIntent) (current : Time) :
    Except Raised Unit :=
  if signed.agentIdentity.identity.agentId ≠ signed.intent.agentId then
    .error (signedActionIntentError "agent_identity_mismatch")
  else if signed.intentHash ≠ crypto.intentHash signed.intent then
    .error (signedActionIntentError "intent_hash_mismatch")
  else match signed.agentIdentity.verifyIdentity crypto with
    | .error error => .error (signedActionIntentError error.message)
    | .ok _ =>
        if ¬crypto.intentSignatureValid signed then
          .error (signedActionIntentError "signature_invalid")
        else if signed.expiresAt.isEmpty then .ok ()
        else match signed.expiresAt.time? with
          | none => .error (signedActionIntentError "invalid_expiry")
          | some expiry =>
              if expiry ≤ current then .error (signedActionIntentError "intent_expired")
              else .ok ()

end SignedActionIntent

end AegisForge.Shared
