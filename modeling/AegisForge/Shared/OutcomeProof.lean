import AegisForge.Shared.EvidenceManifest
import AegisForge.Shared.ResearchCase

/-!
# Outcome proofs

A proof carries the public key that signs it and the grant that was signed with
the same key.  The verifier checks its shape, both signatures and what binds the
grant to the receipt, the contract, the outcome and the evidence.
-/

namespace AegisForge.Shared.OutcomeProof

open AegisForge.Core

def outcomeProofError (message : String) : Raised := ⟨.outcomeProofError, message⟩

def schemaVersion : String := "outcome-proof-v1"

def algorithm : String := "Ed25519"

/-- What the verifier takes from outside of the repository. -/
structure Primitives where
  /-- `base64.urlsafe_b64decode(str(value).encode("ascii"))`, where it raises nothing. -/
  urlsafeB64decode : Json → Option Octets
  /-- Whether an Ed25519 signature by a public key covers the bytes. -/
  verify : Octets → Octets → Octets → Bool
  /-- `hashlib.sha256`. -/
  sha256 : Octets → Digest

/-! ## Checks -/

/-- `if not condition: raise OutcomeProofError(message)`. -/
def require (condition : Prop) [Decidable condition] (message : String) :
    Except Raised Unit :=
  raiseUnless condition (outcomeProofError message)

/-- Checks in their order, each with the text of its error. -/
def requireAll (checks : List (Bool × String)) : Except Raised Unit :=
  checks.forM fun check => require (check.1 = true) check.2

/-- `except Exception as exc: raise OutcomeProofError(str(exc))`. -/
def wrapped {A : Type} : Except Raised A → Except Raised A
  | .ok value => .ok value
  | .error error => .error (outcomeProofError error.message)

/-- `_b64decode`. -/
def b64decode (primitives : Primitives) (value : Json) (field : String) :
    Except Raised Octets :=
  orRaise (outcomeProofError s!"invalid_base64:{field}") (primitives.urlsafeB64decode value)

/-- `value[key]`, where the key may be missing. -/
def item (value : Json) (key : String) : Except Raised Json :=
  orRaise ⟨.keyError, s!"'{key}'"⟩ (value.get? key)

/-! ## What is signed -/

/-- The bytes of `canonical_json(payload)`. -/
def canonicalJson (payload : Json) : Octets := payload.sortKeys.canonicalBytes

/-- The fields of `_integrity_payload`. -/
def integrityFields : List String :=
  ["algorithm", "evidence", "evidence_manifest", "grant", "key_id", "outcome",
    "outcome_contract", "public_key", "receipt", "schema_version"]

/-- The fields of `_signature_payload`. -/
def signatureFields : List String :=
  ["algorithm", "evidence", "evidence_manifest", "grant", "key_id", "outcome",
    "outcome_contract", "proof_id", "public_key", "receipt", "schema_version"]

def project (proof : Json) (fields : List String) : Json :=
  .object (fields.map fun field => (field, proof.get field))

/-- `_integrity_payload`. -/
def integrityPayload (proof : Json) : Json := project proof integrityFields

/-- `_signature_payload`. -/
def signaturePayload (proof : Json) : Json := project proof signatureFields

/-- What the signature of a grant covers. -/
def grantPayload (grant keyId : Json) : Json :=
  .object [
    ("agent_identity", grant.get "agent_identity"),
    ("algorithm", grant.get "algorithm"),
    ("grant", grant.get "grant"),
    ("key_id", keyId)]

/-! ## The shape of a proof -/

def requiredFields : List String :=
  ["schema_version", "algorithm", "key_id", "public_key", "proof_id", "grant", "receipt",
    "outcome_contract", "outcome", "evidence", "signature"]

/-- The checks of `_validate_shape` that come before the manifest. -/
def headerChecks (proof : Json) : List (Bool × String) :=
  (proof.isObject, "proof_object_required") ::
    requiredFields.map (fun field =>
      (decide (field ∈ proof.keys), s!"proof_field_missing:{field}")) ++
    [(decide (proof.get "schema_version" = .text schemaVersion), "unsupported_proof_schema"),
      (decide (proof.get "algorithm" = .text algorithm), "unsupported_proof_algorithm"),
      ((proof.get "grant").isObject && (proof.get "receipt").isObject,
        "proof_binding_objects_required"),
      ((proof.get "outcome_contract").isObject, "proof_outcome_contract_required"),
      ((proof.get "outcome").isObject, "proof_outcome_required"),
      ((proof.get "evidence").isObject, "proof_evidence_required")]

/-- The checks of `_validate_shape` that come after the manifest. -/
def outcomeChecks (proof : Json) : List (Bool × String) :=
  [(decide ((proof.get "outcome").get "status" = .text "PROVEN"), "proof_outcome_not_proven"),
    (((proof.get "outcome").get "verifier").equal ((proof.get "outcome_contract").get "verifier"),
      "proof_verifier_mismatch")]

variable (primitives : Primitives)

/-- `_validate_shape`. -/
def validateShape (proof : Json) : Except Raised Unit := do
  requireAll (headerChecks proof)
  -- the one field that is read without having been required
  let manifest ← item proof "evidence_manifest"
  require (manifest.isObject = true) "proof_evidence_manifest_required"
  let _ ← wrapped (EvidenceManifest.verifyManifest primitives.sha256 manifest)
  requireAll (outcomeChecks proof)

/-! ## Signatures -/

/-- The part of `verify_outcome_proof` up to the signature of the proof, with the key that
signed it. -/
def verifySignature (proof : Json) : Except Raised Octets := do
  let expectedId := primitives.sha256 (canonicalJson (integrityPayload proof))
  require (proof.get "proof_id" = .text expectedId.text) "proof_id_mismatch"
  let publicBytes ← b64decode primitives (proof.get "public_key") "public_key"
  require (publicBytes.length = 32) "invalid_ed25519_public_key"
  let signature ← b64decode primitives (proof.get "signature") "signature"
  require (signature.length = 64) "invalid_ed25519_signature"
  require (primitives.verify publicBytes signature (canonicalJson (signaturePayload proof)) = true)
    "proof_signature_invalid"
  return publicBytes

/-- `grant.get("signature", "")`. -/
def grantSignature (grant : Json) : Json := (grant.get? "signature").getD (.text "")

/-- `grant.get("grant") or {}`. -/
def grantBody (grant : Json) : Json :=
  if (grant.get "grant").isTruthy = true then grant.get "grant" else .object []

/-- The part of `verify_outcome_proof` about the signature of the grant. -/
def verifyGrant (proof : Json) (publicBytes : Octets) : Except Raised Unit := do
  let grant := proof.get "grant"
  require (grant.get "algorithm" = .text algorithm) "grant_signature_algorithm_invalid"
  require ((grant.get "key_id").equal (proof.get "key_id") = true) "grant_signer_key_mismatch"
  let signature ← b64decode primitives (grantSignature grant) "grant_signature"
  -- both key ids may be missing or null above
  let keyId ← item grant "key_id"
  require (primitives.verify publicBytes signature (canonicalJson (grantPayload grant keyId)) = true)
    "grant_signature_invalid"

/-! ## Bindings -/

/-- `isinstance(value, int) and value >= 1`, where a truth value is a number. -/
def isEpoch : Json → Bool
  | .int value => 1 ≤ value
  | .bool value => value
  | _ => false

/-- `value in (None, expected)`. -/
def isNoneOr (value expected : Json) : Bool := value = .null || value.equal expected

/-- The checks of `verify_outcome_proof` between the parts of a proof. -/
def bindingChecks (proof body : Json) : List (Bool × String) :=
  let receipt := proof.get "receipt"
  let evidence := proof.get "evidence"
  let same (field : String) : Bool := (receipt.get field).equal (body.get field)
  [((body.get "grant_id").equal (receipt.get "grant_id"), "grant_receipt_binding_mismatch"),
    ((body.get "task_id").equal (receipt.get "task_id"), "grant_receipt_task_mismatch"),
    (!(receipt.get "intent_hash").isTruthy ||
      (body.get "intent_hash").equal (receipt.get "intent_hash"),
      "grant_receipt_intent_mismatch"),
    (same "agent_id", "grant_receipt_agent_mismatch"),
    (same "authority_epoch", "grant_receipt_epoch_mismatch"),
    (same "authority_state", "grant_receipt_authority_state_mismatch"),
    (same "policy_version", "grant_receipt_policy_mismatch"),
    ((body.get "outcome_contract").equal (proof.get "outcome_contract"),
      "grant_contract_mismatch"),
    ((body.get "agent_id").isTruthy && same "agent_id", "grant_receipt_agent_mismatch"),
    (((proof.get "outcome").get "agent_id").equal (body.get "agent_id"),
      "outcome_agent_mismatch"),
    ((receipt.get "executor_id").isTruthy, "executor_identity_required"),
    ((receipt.get "executor_version").isTruthy, "executor_version_required"),
    (isEpoch (receipt.get "executor_identity_epoch"), "executor_identity_epoch_required"),
    (!(receipt.get "executor_implementation_digest").isTruthy ||
      isNoneOr (evidence.get "executor_implementation_digest")
        (receipt.get "executor_implementation_digest"), "evidence_executor_digest_mismatch"),
    (isNoneOr (evidence.get "executor_identity_epoch") (receipt.get "executor_identity_epoch"),
      "evidence_executor_epoch_mismatch"),
    (isNoneOr (evidence.get "executor_id") (receipt.get "executor_id"),
      "evidence_executor_mismatch"),
    (isNoneOr (evidence.get "executor_version") (receipt.get "executor_version"),
      "evidence_executor_version_mismatch"),
    ((evidence.get "agent_id").equal (body.get "agent_id"), "evidence_agent_mismatch"),
    (((proof.get "evidence_manifest").get "agent_id").equal (body.get "agent_id"),
      "manifest_agent_mismatch")]

/-- The artifacts whose digests the manifest must hold. -/
def artifacts (proof : Json) : Json :=
  .object [
    ("contract", proof.get "outcome_contract"),
    ("evidence", proof.get "evidence"),
    ("grant", proof.get "grant"),
    ("outcome", proof.get "outcome"),
    ("receipt", proof.get "receipt")]

/-- What the verifier answers of a valid proof. -/
structure Verdict where
  proofId : Json
  keyId : Json
  algorithm : Json
  verifier : Json
  outcomeId : Json
  grantId : Json
  taskId : Json
  deriving DecidableEq

/-- The part of `verify_outcome_proof` about what the grant binds, with its verdict. -/
def verifyBindings (proof : Json) : Except Raised Verdict := do
  let body := grantBody (proof.get "grant")
  raiseUnless (body.isObject = true)
    ⟨.attributeError, s!"'{typeName body}' object has no attribute 'get'"⟩
  requireAll (bindingChecks proof body)
  wrapped (EvidenceManifest.verifyArtifactBindings primitives.sha256
    (proof.get "evidence_manifest") (artifacts proof))
  require (((proof.get "outcome").get "outcome_id").equal
    ((proof.get "evidence").get "outcome_id") = true) "outcome_evidence_binding_mismatch"
  -- the outcome and its contract may both name no verifier
  let verifier ← item (proof.get "outcome") "verifier"
  return {
    proofId := proof.get "proof_id"
    keyId := proof.get "key_id"
    algorithm := proof.get "algorithm"
    verifier := verifier
    outcomeId := (proof.get "outcome").get "outcome_id"
    grantId := body.get "grant_id"
    taskId := body.get "task_id" }

/-- `verify_outcome_proof`. -/
def verifyOutcomeProof (proof : Json) : Except Raised Verdict := do
  validateShape primitives proof
  let publicBytes ← verifySignature primitives proof
  verifyGrant primitives proof publicBytes
  verifyBindings primitives proof

end AegisForge.Shared.OutcomeProof
