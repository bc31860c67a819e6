import AegisForge.Shared.ExperimentDossier

/-!
# Lab execution receipts

A receipt states what a run consumed and observed.  Its envelope is signed by a
runner whose raw public key the verifier pins by key id.
-/

namespace AegisForge.Shared.LabExecutionReceipt

open AegisForge.Core
open AttestorRegistry (Bytes)

/-- The primitives that come from outside. -/
structure Primitives where
  /-- `canonical_json`: UTF-8 JSON with sorted keys of a dictionary. -/
  canonicalJson : Json → Option Bytes
  /-- SHA-256 in hexadecimal. -/
  sha256 : Bytes → String
  /-- `base64.b64decode`, validated. -/
  decodeBase64 : String → Option Bytes
  /-- Whether an Ed25519 signature by a raw public key covers the bytes. -/
  signatureValid : Bytes → Bytes → Bytes → Bool

def receiptError (message : String) : Raised := ⟨.labExecutionReceiptError, message⟩

/-- `type(value) is int and value == 1`. -/
def isOne : Json → Bool
  | .int value => value = 1
  | _ => false

/-- `_validate_receipt_shape`, which answers the canonical bytes. -/
def validateReceiptShape (primitives : Primitives) (receipt : Json) : Except Raised Bytes := do
  raiseUnless (receipt.isObject = true) (receiptError "receipt_object_required")
  raiseUnless (isOne (receipt.get "schema_version") = true)
    (receiptError "unsupported_receipt_schema")
  raiseUnless ((receipt.get "receipt_type").text? = some "aegisforge.lab_execution")
    (receiptError "unsupported_receipt_schema")
  raiseUnless ((receipt.get "run_id").filledText?.isSome = true) (receiptError "run_id_required")
  raiseUnless ((receipt.get "experiment_id").filledText?.isSome = true)
    (receiptError "experiment_id_required")
  raiseUnless ((receipt.get "inputs").isObject = true) (receiptError "inputs_object_required")
  raiseUnless ((receipt.get "execution").isObject = true)
    (receiptError "execution_object_required")
  raiseUnless ((receipt.get "artifacts").isObject = true)
    (receiptError "artifacts_object_required")
  orRaise (receiptError "receipt_not_canonicalizable") (primitives.canonicalJson receipt)

/-- The dictionary that `_signature_payload` serializes. -/
def signaturePayload (envelope : Json) (keyId receiptDigest : String) : Json :=
  .object [
    ("domain", .text "aegisforge.lab_execution_receipt.signature.v1"),
    ("schema_version", envelope.get "schema_version"),
    ("algorithm", envelope.get "algorithm"),
    ("key_id", .text keyId),
    ("receipt", envelope.get "receipt"),
    ("receipt_sha256", .text receiptDigest),
    ("signer_public_key_sha256", envelope.get "signer_public_key_sha256")]

def envelopeFields : List String :=
  ["schema_version", "algorithm", "key_id", "receipt", "receipt_sha256",
    "signer_public_key_sha256", "signature"]

/-- What `verify_signed_receipt` answers. -/
structure VerifiedReceipt where
  keyId : String
  receiptSha256 : String
  runId : Json
  experimentId : Json

/-- The signature decodes and covers the payload. -/
def signatureCovers (primitives : Primitives) (envelope : Json) (publicBytes : Bytes)
    (keyId receiptDigest : String) : Bool :=
  ((envelope.get "signature").text?.bind primitives.decodeBase64).any fun signature =>
    (primitives.canonicalJson (signaturePayload envelope keyId receiptDigest)).any fun payload =>
      primitives.signatureValid publicBytes signature payload

/-- `verify_signed_receipt`, where trusted keys are pinned by key id. -/
def verifySignedReceipt (primitives : Primitives) (envelope : Json)
    (trustedPublicKeys : String → Option Bytes) : Except Raised VerifiedReceipt := do
  raiseUnless (envelope.isObject = true) (receiptError "signed_receipt_object_required")
  raiseUnless (isOne (envelope.get "schema_version") = true)
    (receiptError "unsupported_signed_receipt_schema")
  raiseUnless ((∀ key ∈ envelope.keys, key ∈ envelopeFields) ∧
    ∀ field ∈ envelopeFields, field ∈ envelope.keys)
    (receiptError "invalid_signed_receipt_fields")
  raiseUnless ((envelope.get "algorithm").text? = some "Ed25519")
    (receiptError "unsupported_signed_receipt_schema")
  raiseUnless ((envelope.get "signature").text?.isSome = true)
    (receiptError "receipt_signature_invalid")
  let keyId ← orRaise (receiptError "untrusted_runner_key") (envelope.get "key_id").text?
  let publicBytes ← orRaise (receiptError "untrusted_runner_key") (trustedPublicKeys keyId)
  raiseUnless ((envelope.get "receipt").isObject = true) (receiptError "receipt_object_required")
  let payload ← validateReceiptShape primitives (envelope.get "receipt")
  let digest := primitives.sha256 payload
  raiseUnless ((envelope.get "receipt_sha256").text? = some digest)
    (receiptError "receipt_digest_mismatch")
  raiseUnless ((envelope.get "signer_public_key_sha256").text? =
    some (primitives.sha256 publicBytes)) (receiptError "signer_key_fingerprint_mismatch")
  raiseUnless (signatureCovers primitives envelope publicBytes keyId digest = true)
    (receiptError "receipt_signature_invalid")
  pure {
    keyId := keyId
    receiptSha256 := digest
    runId := (envelope.get "receipt").get "run_id"
    experimentId := (envelope.get "receipt").get "experiment_id" }

/-! ## What was checked -/

variable {primitives : Primitives} {envelope : Json} {verified : VerifiedReceipt}

/-- The three parts of a well-shaped receipt are dictionaries. -/
theorem parts_of_validateReceiptShape {receipt : Json} {payload : Bytes}
    (hshaped : validateReceiptShape primitives receipt = .ok payload) :
    (receipt.get "inputs").isObject = true ∧ (receipt.get "execution").isObject = true ∧
      (receipt.get "artifacts").isObject = true := by
  obtain ⟨-, hversioned⟩ := raiseUnless_bind_eq_ok hshaped
  obtain ⟨-, htyped⟩ := raiseUnless_bind_eq_ok hversioned
  obtain ⟨-, hrun⟩ := raiseUnless_bind_eq_ok htyped
  obtain ⟨-, hexperiment⟩ := raiseUnless_bind_eq_ok hrun
  obtain ⟨-, hstated⟩ := raiseUnless_bind_eq_ok hexperiment
  obtain ⟨hinputs, hexecuted⟩ := raiseUnless_bind_eq_ok hstated
  obtain ⟨hexecution, hlisted⟩ := raiseUnless_bind_eq_ok hexecuted
  obtain ⟨hartifacts, -⟩ := raiseUnless_bind_eq_ok hlisted
  exact ⟨hinputs, hexecution, hartifacts⟩

/-- The receipt of a verified envelope is well shaped. -/
theorem shaped_of_verifySignedReceipt {trusted : String → Option Bytes}
    (hverified : verifySignedReceipt primitives envelope trusted = .ok verified) :
    ∃ payload, validateReceiptShape primitives (envelope.get "receipt") = .ok payload := by
  obtain ⟨-, hversioned⟩ := raiseUnless_bind_eq_ok hverified
  obtain ⟨-, hfielded⟩ := raiseUnless_bind_eq_ok hversioned
  obtain ⟨-, halgorithmic⟩ := raiseUnless_bind_eq_ok hfielded
  obtain ⟨-, hsigned⟩ := raiseUnless_bind_eq_ok halgorithmic
  obtain ⟨-, hkeyed⟩ := raiseUnless_bind_eq_ok hsigned
  obtain ⟨keyId, -, htrusted⟩ := orRaise_bind_eq_ok hkeyed
  obtain ⟨publicBytes, -, hreceipt⟩ := orRaise_bind_eq_ok htrusted
  obtain ⟨-, hshape⟩ := raiseUnless_bind_eq_ok hreceipt
  obtain ⟨payload, hshaped, -⟩ := bind_eq_ok hshape
  exact ⟨payload, hshaped⟩

/-- A verified receipt is verified again wherever its key is still trusted. -/
theorem verifySignedReceipt_of_trusted {trusted later : String → Option Bytes}
    (hverified : verifySignedReceipt primitives envelope trusted = .ok verified)
    (hlater : later verified.keyId = trusted verified.keyId) :
    verifySignedReceipt primitives envelope later = .ok verified := by
  obtain ⟨hobject, hversioned⟩ := raiseUnless_bind_eq_ok hverified
  obtain ⟨hversion, hfielded⟩ := raiseUnless_bind_eq_ok hversioned
  obtain ⟨hfields, halgorithmic⟩ := raiseUnless_bind_eq_ok hfielded
  obtain ⟨halgorithm, hsigned⟩ := raiseUnless_bind_eq_ok halgorithmic
  obtain ⟨hsignature, hkeyed⟩ := raiseUnless_bind_eq_ok hsigned
  obtain ⟨keyId, hkeyId, htrusted⟩ := orRaise_bind_eq_ok hkeyed
  obtain ⟨publicBytes, hpublic, hrest⟩ := orRaise_bind_eq_ok htrusted
  have hsame : verified.keyId = keyId := by
    obtain ⟨-, hshaped⟩ := raiseUnless_bind_eq_ok hrest
    obtain ⟨_, -, hdigested⟩ := bind_eq_ok hshaped
    obtain ⟨-, hfingerprinted⟩ := raiseUnless_bind_eq_ok hdigested
    obtain ⟨-, hcovered⟩ := raiseUnless_bind_eq_ok hfingerprinted
    obtain ⟨-, hanswer⟩ := raiseUnless_bind_eq_ok hcovered
    exact congrArg VerifiedReceipt.keyId (Except.ok.inj hanswer).symm
  rw [hsame] at hlater
  rw [verifySignedReceipt, raiseUnless_bind_eq_ok_iff]
  refine ⟨hobject, ?_⟩
  rw [raiseUnless_bind_eq_ok_iff]
  refine ⟨hversion, ?_⟩
  rw [raiseUnless_bind_eq_ok_iff]
  refine ⟨hfields, ?_⟩
  rw [raiseUnless_bind_eq_ok_iff]
  refine ⟨halgorithm, ?_⟩
  rw [raiseUnless_bind_eq_ok_iff]
  refine ⟨hsignature, ?_⟩
  rw [orRaise_bind_eq_ok_iff]
  refine ⟨keyId, hkeyId, ?_⟩
  rw [orRaise_bind_eq_ok_iff]
  exact ⟨publicBytes, hlater.trans hpublic, hrest⟩

end AegisForge.Shared.LabExecutionReceipt
